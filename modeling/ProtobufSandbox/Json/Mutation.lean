import ProtobufSandbox.Json.Attributes

/-!
# Mutators on an object

The calls of `CNT_JSON` that change an object, and what each of them can do to
it: a member is added at the end, is replaced at the place where its name is
found ignoring case, or is written where its name is found exactly.
-/

namespace ProtobufSandbox

/-- A call of a mutator on an object. -/
inductive Mutation
  | setInt (key : Bytes) (valueint : Int32)
  | setBool (key : Bytes) (valuebool : Bool)
  | setDouble (key : Bytes) (valuedouble : Rat)
  | setString (key valuestring : Bytes)
  | incrInt (key : Bytes) (incr : Int32)
  | incrDouble (key : Bytes) (incr : Rat)
  | copyItem (targetKey : CString) (source : CJSON) (sourceKey : CString)
  | merge (source : CJSON)
  | addParamsString (entries : List (Bytes × Bytes))
  | addParamsDouble (entries : List (Bytes × Rat))

namespace CJSON

/-- A mutator called on an item without siblings. -/
def mutateChain (item : CJSON) : Mutation → Except AttributeError (List CJSON)
  | .setInt key valueint => setAttributeValueInt [item] key valueint
  | .setBool key valuebool => setAttributeValueBool [item] key valuebool
  | .setDouble key valuedouble => setAttributeValueDouble [item] key valuedouble
  | .setString key valuestring => setAttributeValueString [item] key valuestring
  | .incrInt key incr => (incrAttributeValueInt [item] key incr).map Prod.snd
  | .incrDouble key incr =>
      (incrAttributeValueDouble [item] key incr).map Prod.snd
  | .copyItem targetKey source sourceKey =>
      (CJSON.copyItem [item] targetKey source sourceKey).map Prod.snd
  | .merge source => (mergeJSONObjects [item] [source]).map Prod.snd
  | .addParamsString entries => (addParamsMapString [item] entries).map Prod.snd
  | .addParamsDouble entries => (addParamsMapDouble [item] entries).map Prod.snd

/-- The item after a call that returns. -/
def mutate (item : CJSON) (mutation : Mutation) : Option CJSON :=
  (item.mutateChain mutation).toOption.bind List.head?

/-! ## Names that are found -/

/-- The object has a member with exactly the key, of an accepted type. -/
def HoldsAttribute
    (object : CJSON)
    (key : Bytes)
    (accepts : CJSONType → Bool) : Prop :=
  ∃ member ∈ object.child, member.name = some key ∧ accepts member.type = true

instance HoldsAttribute.decidable
    (object : CJSON)
    (key : Bytes)
    (accepts : CJSONType → Bool) :
    Decidable (object.HoldsAttribute key accepts) :=
  List.decidableBEx _ _

/-- The first member with the name, ignoring case. -/
def firstLike (object : CJSON) (string : CString) : Option CJSON :=
  object.child.find? fun member => member.namedLike string

/-- The first member with the name, ignoring case, has exactly this name. -/
def FirstExact (object : CJSON) (string : CString) : Prop :=
  ∀ member ∈ object.firstLike string, member.name = some string.val

instance FirstExact.decidable (object : CJSON) (string : CString) :
    Decidable (object.FirstExact string) :=
  inferInstanceAs
    (Decidable (∀ member ∈ object.firstLike string, member.name = some string.val))

/-- The first member with the name and its place. -/
theorem firstLike_of_indexLike
    {object : CJSON}
    {string : CString}
    {which : Nat}
    (found : object.indexLike string = some which) :
    ∃ member, object.child[which]? = some member ∧
      object.firstLike string = some member ∧
      ∃ own, member.name = some own := by
  obtain ⟨member, there, like⟩ := exists_of_indexLike found
  refine ⟨member, there, ?_, exists_name_of_namedLike like⟩
  obtain ⟨inRange, equal⟩ := List.getElem?_eq_some_iff.mp there
  obtain ⟨_, _, none⟩ := List.findIdx?_eq_some_iff_getElem.mp found
  rw [firstLike, List.find?_eq_some_iff_getElem]
  exact ⟨like, which, inRange, equal, fun earlier before => by
    simpa using none earlier before⟩

/-! ## Effects -/

/-- What a call does to the members of an object. -/
inductive EffectKind
  | keep
  | add
  | replace
  | write
  deriving DecidableEq

/-- The effect of a call under a name. A member that is replaced is the first
one with the name ignoring case; a member that is written has exactly the name,
and is not written if it was the one replaced. -/
inductive Effect (object : CJSON) (key : CString) : EffectKind → CJSON → Prop
  | keep : Effect object key .keep object
  | add (newitem : CJSON) :
      Effect object key .add (object.addItemToObject key (some newitem))
  | replace
      (newitem : CJSON)
      (write : CJSON → CJSON)
      (which index : Nat)
      (member : CJSON)
      (first : object.indexLike key = some which)
      (there : object.child[index]? = some member)
      (named : member.name = some key.val)
      (sameName : ∀ item, (write item).string = item.string) :
      Effect object key .replace
        { object with
          child :=
            if which = index then
              object.child.set which { newitem with string := some key }
            else
              (object.child.set which
                { newitem with string := some key }).modify index write }
  | write
      (change : CJSON → CJSON)
      (index : Nat)
      (member : CJSON)
      (there : object.child[index]? = some member)
      (named : member.name = some key.val)
      (sameName : ∀ item, (change item).string = item.string) :
      Effect object key .write
        { object with child := object.child.modify index change }

/-- A call keeps the type of the object. -/
theorem Effect.type_eq
    {object after : CJSON}
    {key : CString}
    {kind : EffectKind}
    (effect : Effect object key kind after) :
    after.type = object.type := by
  cases effect with
  | keep => rfl
  | add newitem => rfl
  | replace => rfl
  | write => rfl

/-- A member with exactly the name is among the names. -/
theorem mem_names_of_getElem?
    {object member : CJSON}
    {index : Nat}
    {key : Bytes}
    (there : object.child[index]? = some member)
    (named : member.name = some key) :
    key ∈ object.names :=
  KeyedList.mem_names_iff.mpr ⟨member, List.mem_of_getElem? there, named⟩

/-- Replacing without writing. -/
theorem Effect.replaceItem
    {object member : CJSON}
    {key : CString}
    {which : Nat}
    (first : object.indexLike key = some which)
    (isMember : member ∈ object.child)
    (named : member.name = some key.val)
    (newitem : CJSON) :
    Effect object key .replace
      (object.replaceItemInArray which { newitem with string := some key }) := by
  obtain ⟨index, there⟩ := List.mem_iff_getElem?.mp isMember
  have effect := Effect.replace newitem id which index member first there named
    fun _ => rfl
  rwa [List.modify_id, ite_self] at effect

/-- What a loop over attributes finds is found again by its name, ignoring case. -/
theorem exists_indexLike_of_findAttribute
    {object member : CJSON}
    {key : Bytes}
    {accepts : CJSONType → Bool}
    {index : Nat}
    (searched : findAttribute key accepts object.child = .ok (some (index, member))) :
    ∃ which, object.indexLike (CString.ofBuffer key) = some which := by
  obtain ⟨there, named, -⟩ := of_findAttribute_eq_some searched
  obtain ⟨string, -, spelled⟩ := Option.map_eq_some_iff.mp named
  obtain rfl : CString.ofBuffer key = string := by
    rw [← spelled, CString.ofBuffer_val]
  rw [← spelled] at named
  exact exists_indexLike_of_mem (mem_names_of_getElem? there named)

section Setter

variable {object : CJSON} {key : Bytes} {scalar : CJSONType → Bool}
variable (isObject : object.type = .object) (notScalar : scalar .object = false)
variable (next : List CJSON) (write : CJSON → CJSON) (newitem : CJSON)

include isObject notScalar

/-- A setter of numbers or strings that finds no attribute adds an item. -/
theorem replaceAttribute_of_none
    (searched : findAttribute key scalar object.child = .ok none) :
    replaceAttribute scalar write (object :: next) key newitem =
      .ok (object.addItemToObject (CString.ofBuffer key) (some newitem) :: next) := by
  rw [replaceAttribute, subitems_of_object isObject notScalar, searched]
  rfl

/-- A setter of numbers or strings that finds an attribute replaces the first member
with the name, ignoring case, and writes the attribute unless it was that member. -/
theorem replaceAttribute_of_some
    {index which : Nat}
    {member : CJSON}
    (searched : findAttribute key scalar object.child = .ok (some (index, member)))
    (first : object.indexLike (CString.ofBuffer key) = some which) :
    replaceAttribute scalar write (object :: next) key newitem =
      .ok ({ object with
        child :=
          if which = index then
            object.child.set which { newitem with string := some (CString.ofBuffer key) }
          else
            (object.child.set which
              { newitem with string := some (CString.ofBuffer key) }).modify index write } ::
        next) := by
  obtain ⟨-, named, -⟩ := of_findAttribute_eq_some searched
  obtain ⟨string, present, spelled⟩ := Option.map_eq_some_iff.mp named
  obtain rfl : CString.ofBuffer key = string := by
    rw [← spelled, CString.ofBuffer_val]
  have writes (items : List CJSON) := @writeSubitem_of_object scalar
    { object with child := items } isObject notScalar next
  rw [replaceAttribute, subitems_of_object isObject notScalar, searched]
  simp only [Outcome.ok_bind, present, replaceItemInObject, first]
  by_cases same : which = index
  · rw [if_pos same, if_pos ⟨isObject, congrArg some same⟩]
    rfl
  · have live : ¬ (object.type = .object ∧ some which = some index) :=
      fun both => same (Option.some.inj both.2)
    rw [if_neg same, if_neg live, replaceItemInArray, writes]
    rfl

end Setter

/-- The effect of a setter of numbers or strings. -/
theorem effect_of_replaceAttribute
    {object : CJSON}
    {next result : List CJSON}
    {key : Bytes}
    {scalar : CJSONType → Bool}
    {write : CJSON → CJSON}
    {newitem : CJSON}
    (isObject : object.type = .object)
    (notScalar : scalar .object = false)
    (sameName : ∀ item, (write item).string = item.string)
    (called :
      replaceAttribute scalar write (object :: next) key newitem = .ok result) :
    ∃ after, result = after :: next ∧
      Effect object (CString.ofBuffer key)
        (if object.HoldsAttribute key scalar then .replace else .add) after := by
  obtain ⟨found, searched, -⟩ := Outcome.bind_eq_ok_iff.mp called
  rw [subitems_of_object isObject notScalar] at searched
  cases found with
  | none =>
      have absent : ¬ object.HoldsAttribute key scalar :=
        of_findAttribute_eq_none searched
      have added := replaceAttribute_of_none isObject notScalar next write newitem searched
      cases called.symm.trans added
      exact ⟨_, rfl, if_neg absent ▸ .add newitem⟩
  | some pair =>
      obtain ⟨index, member⟩ := pair
      obtain ⟨there, named, accepted⟩ := of_findAttribute_eq_some searched
      have holds : object.HoldsAttribute key scalar :=
        ⟨member, List.mem_of_getElem? there, named, accepted⟩
      obtain ⟨which, first⟩ := exists_indexLike_of_findAttribute searched
      have replaced := replaceAttribute_of_some isObject notScalar next write newitem
        searched first
      cases called.symm.trans replaced
      obtain ⟨string, -, spelled⟩ := Option.map_eq_some_iff.mp named
      have spelled : (CString.ofBuffer key).val = key := by
        rw [← spelled, CString.ofBuffer_val]
      rw [if_pos holds]
      exact ⟨_, rfl, .replace newitem write which index member first there
        (named.trans (congrArg some spelled.symm)) sameName⟩

/-- The effect of the setter of booleans. -/
theorem effect_of_setAttributeValueBool
    {object : CJSON}
    {next result : List CJSON}
    {key : Bytes}
    {valuebool : Bool}
    (isObject : object.type = .object)
    (called :
      setAttributeValueBool (object :: next) key valuebool = .ok result) :
    ∃ after, result = after :: next ∧
      Effect object (CString.ofBuffer key)
        (if object.HoldsAttribute key isBool then .write else .add) after := by
  have members : subitems isBool object next = object.child :=
    subitems_of_object isObject rfl next
  unfold setAttributeValueBool at called
  obtain ⟨found, searched, rest⟩ := Outcome.bind_eq_ok_iff.mp called
  rw [members] at searched
  cases found with
  | none =>
      have absent : ¬ object.HoldsAttribute key isBool :=
        of_findAttribute_eq_none searched
      cases rest
      exact ⟨_, rfl, if_neg absent ▸ .add _⟩
  | some pair =>
      obtain ⟨index, member⟩ := pair
      obtain ⟨there, named, accepted⟩ := of_findAttribute_eq_some searched
      have holds : object.HoldsAttribute key isBool :=
        ⟨member, List.mem_of_getElem? there, named, accepted⟩
      obtain ⟨string, -, spelled⟩ := Option.map_eq_some_iff.mp named
      obtain rfl : CString.ofBuffer key = string := by
        rw [← spelled, CString.ofBuffer_val]
      have effect := Effect.write
        ({ · with type := if valuebool then .true else .false })
        index member there (named.trans (congrArg some spelled.symm)) fun _ => rfl
      cases rest
      rw [if_pos holds]
      refine ⟨_, ?_, effect⟩
      exact writeSubitem_of_object isObject rfl next _ _

/-- The object has a member with exactly the name, and the name is not empty. -/
def HasMember (object : CJSON) (key : CString) : Prop :=
  key.val ≠ [] ∧ key.val ∈ object.names

instance HasMember.decidable (object : CJSON) (key : CString) :
    Decidable (object.HasMember key) :=
  inferInstanceAs (Decidable (_ ∧ _))

/-- The name that is compared is a name that is not empty. -/
theorem hasKey_iff
    {key : Bytes}
    {item : CJSON} :
    hasKey key item = true ↔ key ≠ [] ∧ item.name = some key := by
  unfold hasKey name
  cases item.string with
  | none => simp
  | some string =>
      rw [Bool.and_eq_true, Bool.not_eq_true', List.isEmpty_eq_false_iff,
        decide_eq_true_eq, Option.map_some, Option.some.injEq, @eq_comm _ string.val]
      apply and_congr_left
      rintro rfl
      exact Iff.rfl

theorem existsAt_eq
    (key : Bytes)
    (recurse : Bool)
    (item : CJSON) :
    existsAt key recurse item =
      (hasKey key item ||
        (recurse && decide item.IsContainer && existsIn key recurse item.child)) := by
  obtain ⟨child, type, valuestring, valueint, valuedouble, string⟩ := item
  have isContainer :
      decide (CJSON.mk child type valuestring valueint valuedouble string).IsContainer =
        (decide (type = .array) || decide (type = .object)) :=
    Bool.decide_or _ _
  rw [existsAt, isContainer]

/-- An item without recursion has the key exactly if that is its name. -/
theorem existsAt_iff
    {key : Bytes}
    {item : CJSON} :
    existsAt key false item = true ↔ key ≠ [] ∧ item.name = some key := by
  rw [existsAt_eq, Bool.false_and, Bool.false_and, Bool.or_false, hasKey_iff]

/-- Without recursion the loop of `doesAttributeExist` looks at the names. -/
theorem existsIn_iff
    {key : Bytes}
    {items : List CJSON} :
    existsIn key false items = true ↔
      key ≠ [] ∧ key ∈ KeyedList.names name items := by
  induction items with
  | nil => simp [existsIn, KeyedList.names]
  | cons item items inductionHypothesis =>
      rw [existsIn, Bool.or_eq_true, existsAt_iff, inductionHypothesis,
        ← and_or_left]
      simp only [KeyedList.mem_names_iff, List.mem_cons, exists_eq_or_imp]

/-- Without recursion `doesAttributeExist` looks for a member with the name. -/
theorem doesAttributeExist_of_container
    {object : CJSON}
    (container : object.IsContainer)
    (next : List CJSON)
    (key : CString) :
    doesAttributeExist (object :: next) key.val false =
      .ok (decide (object.HasMember key)) := by
  simp only [doesAttributeExist, if_pos container, Except.ok.injEq]
  rw [Bool.eq_iff_iff, existsIn_iff, decide_eq_true_eq]
  rfl

/-- What installing a copy does; the copy may be nothing. -/
def installKind
    (object : CJSON)
    (key : CString)
    (copied : Bool) : EffectKind :=
  if object.HasMember key then .replace
  else if copied then .add else .keep

/-- The effect of installing a copy. -/
theorem effect_of_install
    {object : CJSON}
    {next result : List CJSON}
    {key : CString}
    {newitem : Option CJSON}
    (isObject : object.type = .object)
    (called : install (object :: next) key newitem = .ok result) :
    ∃ after, result = after :: next ∧
      Effect object key (object.installKind key newitem.isSome) after := by
  unfold install at called
  obtain ⟨found, asked, rest⟩ := Outcome.bind_eq_ok_iff.mp called
  rw [doesAttributeExist_of_container (Or.inr isObject)] at asked
  cases asked
  unfold installKind
  by_cases member : object.HasMember key
  · simp only [decide_eq_true member, if_true] at rest
    obtain ⟨replaced, replacing, rest⟩ := Outcome.bind_eq_ok_iff.mp rest
    cases rest
    rw [if_pos member]
    refine ⟨replaced, rfl, ?_⟩
    obtain ⟨item, isMember, named⟩ := KeyedList.mem_names_iff.mp member.2
    obtain ⟨which, first⟩ := exists_indexLike_of_mem member.2
    cases newitem with
    | none => simp [replaceItemInObject, first] at replacing
    | some newitem =>
        simp only [replaceItemInObject, first, Except.ok.injEq] at replacing
        exact replacing ▸ .replaceItem first isMember named newitem
  · simp only [decide_eq_false member, Bool.false_eq_true, if_false] at rest
    cases rest
    rw [if_neg member]
    cases newitem with
    | none => exact ⟨object, rfl, .keep⟩
    | some newitem => exact ⟨_, rfl, .add newitem⟩

/-- The copy of an item is an item: an array or object can be parsed once it is
printed. -/
def Copies (item : CJSON) : Bool :=
  !decide item.IsContainer || (parse (item.print ++ [0])).toOption.isSome

/-- The copy of an array or object is what the parser makes of its text. -/
theorem eq_of_copyOf_container
    {item : CJSON}
    {newitem : Option CJSON}
    (container : item.IsContainer)
    (copied : copyOf item = .ok newitem) :
    newitem = (parse (item.print ++ [0])).toOption := by
  rw [copyOf, copyOfWith_container container] at copied
  change parseOrNull (item.print ++ [0]) = _ at copied
  unfold parseOrNull at copied
  cases outcome : parse (item.print ++ [0]) with
  | ok tmpJSON =>
      rw [outcome] at copied
      exact (Except.ok.inj copied).symm
  | error error =>
      rw [outcome] at copied
      cases error with
      | malformed ep => exact (Except.ok.inj copied).symm
      | outOfBounds | overflow | outOfFuel => cases copied

/-- The copy of another item is an item of the same type. -/
theorem exists_of_copyOf_scalar
    {item : CJSON}
    {newitem : Option CJSON}
    (notContainer : ¬ item.IsContainer)
    (copied : copyOf item = .ok newitem) :
    ∃ new, newitem = some new ∧ new.type = item.type ∧
      (item.type = .number → new = createNumber item.valuedouble) := by
  unfold copyOf copyOfWith at copied
  cases type : item.type with
  | false | true | null | number =>
      rw [type] at copied
      cases copied
      exact ⟨_, rfl, rfl, by simp⟩
  | string =>
      rw [type] at copied
      cases present : item.valuestring with
      | none => simp [present] at copied
      | some valuestring =>
          simp only [present] at copied
          cases copied
          exact ⟨_, rfl, rfl, by simp⟩
  | array => exact absurd (Or.inl type) notContainer
  | object => exact absurd (Or.inr type) notContainer

/-- A copy that is made is an item exactly if its original can be copied. -/
theorem isSome_of_copyOf
    {item : CJSON}
    {newitem : Option CJSON}
    (copied : copyOf item = .ok newitem) :
    newitem.isSome = item.Copies := by
  by_cases container : item.IsContainer
  · rw [eq_of_copyOf_container container copied]
    simp [Copies, container]
  · obtain ⟨new, rfl, -⟩ := exists_of_copyOf_scalar container copied
    simp [Copies, container]

/-- What replaces a member is an item. -/
theorem isSome_of_install
    {object : CJSON}
    {next result : List CJSON}
    {key : CString}
    {newitem : Option CJSON}
    (isObject : object.type = .object)
    (member : object.HasMember key)
    (called : install (object :: next) key newitem = .ok result) :
    newitem.isSome = true := by
  unfold install at called
  obtain ⟨found, asked, rest⟩ := Outcome.bind_eq_ok_iff.mp called
  rw [doesAttributeExist_of_container (Or.inr isObject)] at asked
  cases asked
  simp only [decide_eq_true member, if_true] at rest
  obtain ⟨replaced, replacing, -⟩ := Outcome.bind_eq_ok_iff.mp rest
  obtain ⟨which, first⟩ := exists_indexLike_of_mem member.2
  cases newitem with
  | none => simp [replaceItemInObject, first] at replacing
  | some newitem => rfl

/-- One turn of a merge: the copy of an item with a name is installed. -/
theorem mergeItems_cons
    {object item : CJSON}
    {items next result : List CJSON}
    (isObject : object.type = .object)
    (called : mergeItems (object :: next) (item :: items) = .ok result) :
    ∃ key middle, item.string = some key ∧ key.val ≠ [] ∧
      Effect object key (object.installKind key item.Copies) middle ∧
      (object.HasMember key → item.Copies = true) ∧
      mergeItems (middle :: next) items = .ok result := by
  obtain ⟨key, newitem, chain, present, nonEmpty, copied, installed, called⟩ :=
    of_mergeItems_cons_eq_ok called
  obtain ⟨middle, rfl, effect⟩ := effect_of_install isObject installed
  rw [← isSome_of_copyOf copied]
  exact ⟨key, middle, present, nonEmpty, effect,
    fun member => isSome_of_install isObject member installed, called⟩

/-! ## The effect of a call -/

/-- The name that a call works under and what it does there. The calls with
several names have no single effect. -/
def effectOf (object : CJSON) : Mutation → Option (CString × EffectKind)
  | .setInt key _ | .setDouble key _ =>
      some (CString.ofBuffer key,
        if object.HoldsAttribute key isNumber then .replace else .add)
  | .setString key _ =>
      some (CString.ofBuffer key,
        if object.HoldsAttribute key isString then .replace else .add)
  | .setBool key _ =>
      some (CString.ofBuffer key,
        if object.HoldsAttribute key isBool then .write else .add)
  | .incrInt key _ | .incrDouble key _ =>
      some (CString.ofBuffer key,
        if object.HoldsAttribute key isNumber then .replace else .keep)
  | .copyItem targetKey source sourceKey =>
      some (targetKey,
        match source.getObjectItem sourceKey with
        | [] => .keep
        | item :: _ => object.installKind targetKey item.Copies)
  | .merge _ | .addParamsString _ | .addParamsDouble _ => none

/-- A call that returns has changed the item at the head of its chain. -/
theorem mutate_eq_some_iff
    {item after : CJSON}
    {mutation : Mutation} :
    item.mutate mutation = some after ↔
      ∃ next, item.mutateChain mutation = .ok (after :: next) := by
  unfold mutate
  cases item.mutateChain mutation with
  | error error => simp [Except.toOption]
  | ok chain =>
      cases chain with
      | nil => simp [Except.toOption]
      | cons head next => simp [Except.toOption]

/-- The getter of numbers answers for the attributes that are held. -/
theorem getAttribute_of_object
    {object : CJSON}
    {next : List CJSON}
    {key : Bytes}
    {scalar : CJSONType → Bool}
    {found : Option CJSON}
    (isObject : object.type = .object)
    (notScalar : scalar .object = false)
    (got : getAttribute scalar scalar (object :: next) key = .ok found) :
    found.isSome = true ↔ object.HoldsAttribute key scalar := by
  have members := subitems_of_object isObject notScalar next
  obtain ⟨place, searched, rfl⟩ := Outcome.map_eq_ok_iff.mp got
  rw [members] at searched
  cases place with
  | none => exact iff_of_false (by simp) (of_findAttribute_eq_none searched)
  | some pair =>
      obtain ⟨there, named, accepted⟩ := of_findAttribute_eq_some searched
      exact iff_of_true rfl ⟨pair.2, List.mem_of_getElem? there, named, accepted⟩

section Setters

variable {object : CJSON} {next result : List CJSON} {key : Bytes}

theorem effect_of_setAttributeValueInt
    {valueint : Int32}
    (isObject : object.type = .object)
    (called :
      setAttributeValueInt (object :: next) key valueint = .ok result) :
    ∃ after, result = after :: next ∧
      Effect object (CString.ofBuffer key)
        (if object.HoldsAttribute key isNumber then .replace else .add) after := by
  have sameName (item : CJSON) :
      ({ item with valueint := valueint } : CJSON).string = item.string := rfl
  exact effect_of_replaceAttribute isObject rfl sameName called

theorem effect_of_setAttributeValueDouble
    {valuedouble : Rat}
    (isObject : object.type = .object)
    (called :
      setAttributeValueDouble (object :: next) key valuedouble = .ok result) :
    ∃ after, result = after :: next ∧
      Effect object (CString.ofBuffer key)
        (if object.HoldsAttribute key isNumber then .replace else .add) after :=
  effect_of_replaceAttribute isObject rfl (fun _ => rfl) called

theorem effect_of_setAttributeValueString
    {valuestring : Bytes}
    (isObject : object.type = .object)
    (called :
      setAttributeValueString (object :: next) key valuestring = .ok result) :
    ∃ after, result = after :: next ∧
      Effect object (CString.ofBuffer key)
        (if object.HoldsAttribute key isString then .replace else .add) after :=
  effect_of_replaceAttribute isObject rfl (fun _ => rfl) called

/-- An increment sets the attribute if there is one. -/
theorem effect_of_increment
    {found : Option CJSON}
    (isObject : object.type = .object)
    (got : getAttribute isNumber isNumber (object :: next) key = .ok found)
    (missing : found = none → result = object :: next)
    (present : found.isSome = true → ∃ after, result = after :: next ∧
      Effect object (CString.ofBuffer key)
        (if object.HoldsAttribute key isNumber then .replace else .add) after) :
    ∃ after, result = after :: next ∧
      Effect object (CString.ofBuffer key)
        (if object.HoldsAttribute key isNumber then .replace else .keep)
        after := by
  have holds := getAttribute_of_object isObject rfl got
  cases found with
  | none =>
      have absent : ¬ object.HoldsAttribute key isNumber :=
        fun held => Bool.false_ne_true (holds.mpr held)
      exact ⟨object, missing rfl, if_neg absent ▸ .keep⟩
  | some item =>
      obtain ⟨after, same, effect⟩ := present rfl
      refine ⟨after, same, ?_⟩
      rw [if_pos (holds.mp rfl)] at effect ⊢
      exact effect

theorem effect_of_incrAttributeValueInt
    {incr : Int32}
    {answer : Bool}
    (isObject : object.type = .object)
    (called : incrAttributeValueInt (object :: next) key incr =
      .ok (answer, result)) :
    ∃ after, result = after :: next ∧
      Effect object (CString.ofBuffer key)
        (if object.HoldsAttribute key isNumber then .replace else .keep)
        after := by
  unfold incrAttributeValueInt at called
  obtain ⟨value, asked, rest⟩ := Outcome.bind_eq_ok_iff.mp called
  obtain ⟨found, got, rfl⟩ := Outcome.map_eq_ok_iff.mp asked
  apply effect_of_increment isObject got
  · rintro rfl
    cases rest
    rfl
  · intro present
    obtain ⟨item, rfl⟩ := Option.isSome_iff_exists.mp present
    simp only [Option.map_some] at rest
    split at rest
    · obtain ⟨changed, set, rest⟩ := Outcome.bind_eq_ok_iff.mp rest
      cases rest
      exact effect_of_setAttributeValueInt isObject set
    · cases rest

theorem effect_of_incrAttributeValueDouble
    {incr : Rat}
    {answer : Bool}
    (isObject : object.type = .object)
    (called : incrAttributeValueDouble (object :: next) key incr =
      .ok (answer, result)) :
    ∃ after, result = after :: next ∧
      Effect object (CString.ofBuffer key)
        (if object.HoldsAttribute key isNumber then .replace else .keep)
        after := by
  unfold incrAttributeValueDouble at called
  obtain ⟨value, asked, rest⟩ := Outcome.bind_eq_ok_iff.mp called
  obtain ⟨found, got, rfl⟩ := Outcome.map_eq_ok_iff.mp asked
  apply effect_of_increment isObject got
  · rintro rfl
    cases rest
    rfl
  · intro present
    obtain ⟨item, rfl⟩ := Option.isSome_iff_exists.mp present
    obtain ⟨changed, set, rest⟩ := Outcome.bind_eq_ok_iff.mp rest
    cases rest
    exact effect_of_setAttributeValueDouble isObject set

end Setters

/-- The effect of copying an attribute. -/
theorem effect_of_copyItem
    {object source : CJSON}
    {next result : List CJSON}
    {targetKey sourceKey : CString}
    {answer : Bool}
    (isObject : object.type = .object)
    (called : copyItem (object :: next) targetKey source sourceKey =
      .ok (answer, result)) :
    ∃ after, result = after :: next ∧
      Effect object targetKey
        (match source.getObjectItem sourceKey with
          | [] => .keep
          | item :: _ => object.installKind targetKey item.Copies)
        after := by
  unfold copyItem at called
  cases looked : source.getObjectItem sourceKey with
  | nil =>
      rw [looked] at called
      cases called
      exact ⟨object, rfl, .keep⟩
  | cons item siblings =>
      simp only [looked] at called
      obtain ⟨newitem, copied, rest⟩ := Outcome.bind_eq_ok_iff.mp called
      obtain ⟨installed, install, rest⟩ := Outcome.bind_eq_ok_iff.mp rest
      cases rest
      simp only [← isSome_of_copyOf copied]
      exact effect_of_install isObject install

/-- What a call other than a merge or the addition of parameters does. -/
theorem effect_of_mutate
    {object after : CJSON}
    {mutation : Mutation}
    {key : CString}
    {kind : EffectKind}
    (isObject : object.type = .object)
    (single : object.effectOf mutation = some (key, kind))
    (called : object.mutate mutation = some after) :
    Effect object key kind after := by
  obtain ⟨next, called⟩ := mutate_eq_some_iff.mp called
  have conclude {key : CString} {kind : EffectKind}
      (effect : ∃ changed, after :: next = [changed] ∧
        Effect object key kind changed) :
      Effect object key kind after := by
    obtain ⟨changed, same, effect⟩ := effect
    exact (List.cons.inj same).1 ▸ effect
  cases mutation with
  | setInt setKey valueint =>
      cases single
      exact conclude (effect_of_setAttributeValueInt isObject called)
  | setDouble setKey valuedouble =>
      cases single
      exact conclude (effect_of_setAttributeValueDouble isObject called)
  | setString setKey valuestring =>
      cases single
      exact conclude (effect_of_setAttributeValueString isObject called)
  | setBool setKey valuebool =>
      cases single
      exact conclude (effect_of_setAttributeValueBool isObject called)
  | incrInt setKey incr =>
      cases single
      obtain ⟨⟨answer, chain⟩, called, rfl⟩ := Outcome.map_eq_ok_iff.mp called
      exact conclude (effect_of_incrAttributeValueInt isObject called)
  | incrDouble setKey incr =>
      cases single
      obtain ⟨⟨answer, chain⟩, called, rfl⟩ := Outcome.map_eq_ok_iff.mp called
      exact conclude (effect_of_incrAttributeValueDouble isObject called)
  | copyItem targetKey source sourceKey =>
      cases single
      obtain ⟨⟨answer, chain⟩, called, rfl⟩ := Outcome.map_eq_ok_iff.mp called
      exact conclude (effect_of_copyItem isObject called)
  | merge source => cases single
  | addParamsString entries => cases single
  | addParamsDouble entries => cases single

section Params

variable {α : Type}
variable {create : α → CJSON}
variable {update : α → CJSON → Except AttributeError CJSON}

/-- An item under the name it has. -/
theorem with_string_eq_self
    {item : CJSON}
    {string : Option CString}
    (named : item.string = string) :
    { item with string := string } = item := by
  subst named
  cases item
  rfl

/-- A parameter changes the members of its object only. -/
theorem addParam_string
    {args after : CJSON}
    {entry : Bytes × α}
    (called : addParam create update args entry = .ok after) :
    after.string = args.string := by
  unfold addParam at called
  cases first : args.indexLike (CString.ofBuffer entry.1) with
  | none =>
      simp only [first] at called
      cases called
      rfl
  | some which =>
      obtain ⟨tmpObj, there, -⟩ := exists_of_indexLike first
      simp only [first, there] at called
      obtain ⟨updated, -, rest⟩ := Outcome.bind_eq_ok_iff.mp called
      cases rest
      rfl

theorem addParams_string
    {args after : CJSON}
    {entries : List (Bytes × α)}
    (called : addParams create update args entries = .ok after) :
    after.string = args.string := by
  induction entries generalizing args with
  | nil =>
      cases called
      rfl
  | cons entry entries inductionHypothesis =>
      obtain ⟨next, first, rest⟩ := Outcome.bind_eq_ok_iff.mp called
      exact (inductionHypothesis rest).trans (addParam_string first)

/-- Parameters are added under a new name, or their object is written. -/
theorem effect_of_addParamsMap
    {object : CJSON}
    {next result : List CJSON}
    {entries : List (Bytes × α)}
    {answer : Bool}
    (isObject : object.type = .object)
    (called : addParamsMap create update (object :: next) entries =
      .ok (answer, result)) :
    ∃ after key kind, result = after :: next ∧ Effect object key kind after ∧
      kind ≠ .replace ∧ (kind = .add → key.val ∉ object.names) := by
  unfold addParamsMap at called
  obtain ⟨found, asked, rest⟩ := Outcome.bind_eq_ok_iff.mp called
  rw [doesAttributeExist_of_container (Or.inr isObject)] at asked
  cases asked
  by_cases member : object.HasMember (keyOf ['p', 'a', 'r', 'a', 'm', 's'])
  · obtain ⟨which, first⟩ := exists_indexLike_of_mem member.2
    obtain ⟨args, there, -, own, named⟩ := firstLike_of_indexLike first
    obtain ⟨string, present, rfl⟩ := Option.map_eq_some_iff.mp named
    simp only [decide_eq_true member, if_true, first, there] at rest
    obtain ⟨changed, added, rest⟩ := Outcome.bind_eq_ok_iff.mp rest
    cases rest
    have effect := Effect.write
      (fun item => { changed with string := item.string })
      which args there named fun _ => rfl
    refine ⟨_, _, .write, ?_, effect, by decide, nofun⟩
    have same : { changed with string := args.string } = changed :=
      with_string_eq_self (addParams_string added)
    rw [List.modify_eq_set_getElem?, there]
    simp [same, replaceItemInArray]
  · simp only [decide_eq_false member, Bool.false_eq_true, if_false] at rest
    obtain ⟨changed, added, rest⟩ := Outcome.bind_eq_ok_iff.mp rest
    cases rest
    have same : { changed with
        string := some (keyOf ['p', 'a', 'r', 'a', 'm', 's']) } = changed :=
      with_string_eq_self (addParams_string added)
    have effect : Effect object (keyOf ['p', 'a', 'r', 'a', 'm', 's']) .add
        (object.addItemToObject (keyOf ['p', 'a', 'r', 'a', 'm', 's'])
          (some changed)) := .add changed
    rw [addItemToObject, same] at effect
    refine ⟨_, _, .add, rfl, effect, by decide, fun _ present => member ⟨?_, present⟩⟩
    decide

end Params

end CJSON
end ProtobufSandbox
