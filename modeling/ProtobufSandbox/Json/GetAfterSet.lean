import ProtobufSandbox.Json.Frame
import ProtobufSandbox.Json.Scalars

/-!
# A getter after a setter

What a getter answers once the setter of the same type was called with the same
key. A setter of numbers or strings puts the new item in front of every attribute
of its name and type; the setter of booleans may leave an item of another type in
front of the boolean that it writes, and the getter stops there.
-/

namespace ProtobufSandbox
namespace CJSON

/-- An object all of whose members have names. -/
structure NamedObject (object : CJSON) : Prop where
  isObject : object.type = .object
  named : ∀ member ∈ object.child, member.string.isSome

instance NamedObject.decidable (object : CJSON) : Decidable object.NamedObject :=
  decidable_of_iff
    (object.type = .object ∧ ∀ member ∈ object.child, member.string.isSome)
    ⟨fun both => ⟨both.1, both.2⟩, fun both => ⟨both.isObject, both.named⟩⟩

/-! ## The loop over attributes -/

section Search

variable {key : Bytes} {accepts : CJSONType → Bool}

/-- The item is what the loop looks for. -/
def IsAttribute
    (key : Bytes)
    (accepts : CJSONType → Bool)
    (item : CJSON) : Prop :=
  item.name = some key ∧ accepts item.type = true

instance IsAttribute.decidable (key : Bytes) (accepts : CJSONType → Bool) :
    DecidablePred (IsAttribute key accepts) :=
  fun _ => inferInstanceAs (Decidable (_ ∧ _))

theorem isAttribute_iff
    {item : CJSON}
    {string : CString}
    (present : item.string = some string) :
    IsAttribute key accepts item ↔
      key = string.val ∧ accepts item.type = true := by
  rw [IsAttribute, name, present, Option.map_some, Option.some.injEq, eq_comm]

/-- The loop stops at the first attribute. -/
theorem findAttribute_of_first
    {before : List CJSON}
    {found : CJSON}
    (named : ∀ item ∈ before, item.string.isSome)
    (none : ∀ item ∈ before, ¬ IsAttribute key accepts item)
    (wanted : IsAttribute key accepts found)
    (after : List CJSON) :
    findAttribute key accepts (before ++ found :: after) =
      .ok (some (before.length, found)) := by
  induction before with
  | nil =>
      obtain ⟨string, present, -⟩ := Option.map_eq_some_iff.mp wanted.1
      exact findAttribute_cons_of_pos present ((isAttribute_iff present).mp wanted) after
  | cons item before inductionHypothesis =>
      obtain ⟨itemNamed, named⟩ := List.forall_mem_cons.mp named
      obtain ⟨itemOther, none⟩ := List.forall_mem_cons.mp none
      obtain ⟨string, present⟩ := Option.isSome_iff_exists.mp itemNamed
      rw [isAttribute_iff present] at itemOther
      rw [List.cons_append, findAttribute_cons_of_neg present itemOther,
        inductionHypothesis named none]
      rfl

/-- Without an attribute the loop reaches the end. -/
theorem findAttribute_of_none
    {items : List CJSON}
    (named : ∀ item ∈ items, item.string.isSome)
    (none : ∀ item ∈ items, ¬ IsAttribute key accepts item) :
    findAttribute key accepts items = .ok .none := by
  induction items with
  | nil => rfl
  | cons item items inductionHypothesis =>
      obtain ⟨itemNamed, named⟩ := List.forall_mem_cons.mp named
      obtain ⟨itemOther, none⟩ := List.forall_mem_cons.mp none
      obtain ⟨string, present⟩ := Option.isSome_iff_exists.mp itemNamed
      rw [isAttribute_iff present] at itemOther
      rw [findAttribute_cons_of_neg present itemOther, inductionHypothesis named none]
      rfl

end Search

/-! ## Numbers and strings -/

section Setters

variable {object : CJSON} {scalar : CJSONType → Bool} {write : CJSON → CJSON}
variable {newitem : CJSON}

/-- In front of the first member with a name, ignoring case, no member has the
name. -/
theorem not_isAttribute_of_before
    {object : CJSON}
    {key : CString}
    {which : Nat}
    (first : object.indexLike key = some which) :
    ∀ item ∈ object.child.take which, ¬ IsAttribute key.val scalar item := by
  intro item before wanted
  obtain ⟨_, _, none⟩ := List.findIdx?_eq_some_iff_getElem.mp first
  obtain ⟨place, earlier, equal⟩ := List.mem_take_iff_getElem.mp before
  have other := none place (by omega)
  rw [equal, namedLike_of_name wanted.1] at other
  exact other rfl

/-- Without an attribute the setter adds one, behind all members. -/
theorem NamedObject.replaceAttribute_of_absent
    (named : object.NamedObject)
    (notScalar : scalar .object = false)
    (accepted : scalar newitem.type = true)
    (next : List CJSON)
    {key : CString}
    (searched : findAttribute key.val scalar object.child = .ok none) :
    ∃ after place,
      replaceAttribute scalar write (object :: next) key.val newitem =
          .ok (after :: next) ∧
        after.NamedObject ∧
        findAttribute key.val scalar after.child =
          .ok (some (place, { newitem with string := some key })) := by
  have wanted : IsAttribute key.val scalar { newitem with string := some key } :=
    ⟨rfl, accepted⟩
  have absent := of_findAttribute_eq_none searched
  have none : ∀ item ∈ object.child, ¬ IsAttribute key.val scalar item :=
    fun item present wanted => absent ⟨item, present, wanted⟩
  have added := replaceAttribute_of_none named.isObject notScalar next write newitem
    searched
  rw [CString.ofBuffer_val] at added
  refine ⟨object.addItemToObject key (some newitem), object.child.length, added,
    ⟨named.isObject, ?_⟩, findAttribute_of_first named.named none wanted []⟩
  intro item present
  cases List.mem_append.mp present with
  | inl old => exact named.named item old
  | inr added => exact List.mem_singleton.mp added ▸ rfl

/-- With an attribute the setter puts the new item in front of it, or in its place. -/
theorem NamedObject.replaceAttribute_of_present
    (named : object.NamedObject)
    (notScalar : scalar .object = false)
    (sameName : ∀ item, (write item).string = item.string)
    (accepted : scalar newitem.type = true)
    (next : List CJSON)
    {key : CString}
    {index : Nat}
    {member : CJSON}
    (searched : findAttribute key.val scalar object.child = .ok (some (index, member))) :
    ∃ after place,
      replaceAttribute scalar write (object :: next) key.val newitem =
          .ok (after :: next) ∧
        after.NamedObject ∧
        findAttribute key.val scalar after.child =
          .ok (some (place, { newitem with string := some key })) := by
  let new : CJSON := { newitem with string := some key }
  have wanted : IsAttribute key.val scalar new := ⟨rfl, accepted⟩
  obtain ⟨there, isNamed, isScalar⟩ := of_findAttribute_eq_some searched
  obtain ⟨which, first⟩ := exists_indexLike_of_findAttribute searched
  have replaced := replaceAttribute_of_some named.isObject notScalar next write newitem
    searched first
  rw [CString.ofBuffer_val] at replaced first
  have noneBefore := @not_isAttribute_of_before scalar object key which first
  obtain ⟨old, oldThere, -⟩ := exists_of_indexLike first
  obtain ⟨before, behind, split, written, length⟩ :=
    KeyedList.exists_split oldThere new
  subst length
  rw [split, List.take_left] at noneBefore
  have allNamed : ∀ item ∈ before ++ new :: behind, item.string.isSome := by
    intro item isItem
    rw [← written] at isItem
    cases List.mem_or_eq_of_mem_set isItem with
    | inl old => exact named.named item old
    | inr equal => exact equal ▸ rfl
  have beforeNamed : ∀ item ∈ before, item.string.isSome :=
    fun item isBefore => allNamed item (List.mem_append_left _ isBefore)
  have finds (after : List CJSON) :=
    findAttribute_of_first beforeNamed noneBefore wanted after
  rw [written] at replaced
  by_cases deleted : before.length = index
  · rw [if_pos deleted] at replaced
    exact ⟨_, before.length, replaced, ⟨named.isObject, allNamed⟩, finds behind⟩
  · -- What is written stands behind the new item.
    have later : before.length < index := by
      by_contra notLater
      have isBefore : member ∈ before := by
        rw [split, List.getElem?_append_left (by omega)] at there
        exact List.mem_of_getElem? there
      exact noneBefore member isBefore ⟨isNamed, isScalar⟩
    obtain ⟨place, rfl⟩ : ∃ place, index = before.length + (place + 1) :=
      ⟨index - before.length - 1, by omega⟩
    have changed := KeyedList.forall_mem_modify allNamed
      (fun item isNamed => (sameName item).symm ▸ isNamed)
      (before.length + (place + 1))
    rw [if_neg deleted] at replaced
    rw [KeyedList.modify_append, List.modify_succ_cons] at replaced changed
    exact ⟨_, before.length, replaced, ⟨named.isObject, changed⟩, finds _⟩

/-- After a setter of numbers or strings the new item is the first attribute of
its name and type. -/
theorem NamedObject.replaceAttribute
    (named : object.NamedObject)
    (notScalar : scalar .object = false)
    (sameName : ∀ item, (write item).string = item.string)
    (accepted : scalar newitem.type = true)
    (next : List CJSON)
    (key : CString) :
    ∃ after place,
      replaceAttribute scalar write (object :: next) key.val newitem =
          .ok (after :: next) ∧
        after.NamedObject ∧
        findAttribute key.val scalar after.child =
          .ok (some (place, { newitem with string := some key })) := by
  obtain ⟨found, searched⟩ :=
    @exists_findAttribute key.val scalar object.child named.named
  cases found with
  | none => exact named.replaceAttribute_of_absent notScalar accepted next searched
  | some pair =>
      obtain ⟨index, member⟩ := pair
      exact named.replaceAttribute_of_present notScalar sameName accepted next searched

end Setters

section Getters

variable {object : CJSON} {next : List CJSON} {key : Bytes}
variable {scalar accepts : CJSONType → Bool}

/-- The getters look at the members of an object. -/
theorem NamedObject.getAttribute
    (named : object.NamedObject)
    (notScalar : scalar .object = false)
    (next : List CJSON)
    (key : Bytes) :
    getAttribute scalar accepts (object :: next) key =
      (findAttribute key accepts object.child).map fun found =>
        found.map Prod.snd := by
  have members := subitems_of_object named.isObject notScalar next
  unfold CJSON.getAttribute
  dsimp only
  rw [members]

theorem NamedObject.setAttributeValueInt
    (named : object.NamedObject)
    (next : List CJSON)
    (key : CString)
    (valueint : Int32) :
    ∃ after,
      setAttributeValueInt (object :: next) key.val valueint =
          .ok (after :: next) ∧
        after.NamedObject ∧
        getAttributeValueInt (after :: next) key.val = .ok (some valueint) := by
  obtain ⟨after, place, called, afterNamed, found⟩ :=
    @NamedObject.replaceAttribute object isNumber
      ({ · with valueint := valueint }) (createNumber valueint.toInt) named rfl
      (fun _ => rfl) rfl next key
  refine ⟨after, called, afterNamed, ?_⟩
  rw [getAttributeValueInt, afterNamed.getAttribute rfl, found]
  exact congrArg (fun value => Except.ok (some value)) (toInt_intCast valueint)

theorem NamedObject.setAttributeValueDouble
    (named : object.NamedObject)
    (next : List CJSON)
    (key : CString)
    (valuedouble : Rat) :
    ∃ after,
      setAttributeValueDouble (object :: next) key.val valuedouble =
          .ok (after :: next) ∧
        getAttributeValueDouble (after :: next) key.val =
          .ok (some valuedouble) := by
  obtain ⟨after, place, called, afterNamed, found⟩ :=
    @NamedObject.replaceAttribute object isNumber id (createNumber valuedouble)
      named rfl (fun _ => rfl) rfl next key
  refine ⟨after, called, ?_⟩
  rw [getAttributeValueDouble, afterNamed.getAttribute rfl, found]
  rfl

theorem NamedObject.setAttributeValueString
    (named : object.NamedObject)
    (next : List CJSON)
    (key valuestring : CString) :
    ∃ after,
      setAttributeValueString (object :: next) key.val valuestring.val =
          .ok (after :: next) ∧
        getAttributeValueString (after :: next) key.val =
          .ok (some valuestring.val) := by
  obtain ⟨after, place, called, afterNamed, found⟩ :=
    @NamedObject.replaceAttribute object isString id
      (createString (CString.ofBuffer valuestring.val)) named rfl (fun _ => rfl)
      rfl next key
  refine ⟨after, called, ?_⟩
  rw [getAttributeValueString, afterNamed.getAttribute rfl, found,
    CString.ofBuffer_val]
  rfl

end Getters

/-! ## Increments -/

/-- The number is an `int`. -/
def IsInt (number : Int) : Prop :=
  Int32.minValue.toInt ≤ number ∧ number ≤ Int32.maxValue.toInt

instance IsInt.decidable (number : Int) : Decidable (IsInt number) :=
  inferInstanceAs (Decidable (_ ∧ _))

/-- Calls of `incrAttributeValue_Int` one after another: what they return, and
the chain after them. -/
def incrementAll
    (JSONObj : List CJSON)
    (key : Bytes) : List Int32 → Except AttributeError (List Bool × List CJSON)
  | [] => .ok ([], JSONObj)
  | incr :: incrs => do
      let first ← incrAttributeValueInt JSONObj key incr
      let rest ← incrementAll first.2 key incrs
      return (first.1 :: rest.1, rest.2)

/-- The sums of the first few increments. -/
def partialSum (incrs : List Int32) (count : Nat) : Int :=
  ((incrs.take count).map Int32.toInt).sum

theorem partialSum_succ (incr : Int32) (incrs : List Int32) (count : Nat) :
    partialSum (incr :: incrs) (count + 1) = incr.toInt + partialSum incrs count := by
  rw [partialSum, List.take_succ_cons, List.map_cons, List.sum_cons, partialSum]

/-- One increment of a number that is there. -/
theorem NamedObject.incrAttributeValueInt
    {object : CJSON}
    {next : List CJSON}
    {key : CString}
    {initial incr : Int32}
    (named : object.NamedObject)
    (got : getAttributeValueInt (object :: next) key.val = .ok (some initial))
    (inRange : IsInt (initial.toInt + incr.toInt)) :
    ∃ after,
      incrAttributeValueInt (object :: next) key.val incr =
          .ok (true, after :: next) ∧
        after.NamedObject ∧
        getAttributeValueInt (after :: next) key.val =
          .ok (some (Int32.ofInt (initial.toInt + incr.toInt))) := by
  obtain ⟨after, called, afterNamed, afterGot⟩ :=
    named.setAttributeValueInt next key (Int32.ofInt (initial.toInt + incr.toInt))
  refine ⟨after, ?_, afterNamed, afterGot⟩
  rw [CJSON.incrAttributeValueInt, got, Outcome.ok_bind]
  exact (if_pos inRange).trans (congrArg (· >>= _) called)

/-- Increments whose partial sums are integers add up. -/
theorem NamedObject.incrementAll
    {incrs : List Int32}
    {object : CJSON}
    {next : List CJSON}
    {key : CString}
    {initial : Int32}
    (named : object.NamedObject)
    (got : getAttributeValueInt (object :: next) key.val = .ok (some initial))
    (inRange : ∀ count, IsInt (initial.toInt + partialSum incrs count)) :
    ∃ after final,
      incrementAll (object :: next) key.val incrs =
          .ok (incrs.map fun _ => true, after :: next) ∧
        getAttributeValueInt (after :: next) key.val = .ok (some final) ∧
        final.toInt = initial.toInt + (incrs.map Int32.toInt).sum := by
  induction incrs generalizing object initial with
  | nil => exact ⟨object, initial, rfl, got, (Int.add_zero _).symm⟩
  | cons incr incrs inductionHypothesis =>
      have first : IsInt (initial.toInt + incr.toInt) := by
        have one := inRange 1
        rwa [partialSum_succ, partialSum, List.take_zero, List.map_nil,
          List.sum_nil, Int.add_zero] at one
      obtain ⟨middle, called, middleNamed, middleGot⟩ :=
        named.incrAttributeValueInt got first
      have sum : (Int32.ofInt (initial.toInt + incr.toInt)).toInt =
          initial.toInt + incr.toInt :=
        Int32.toInt_ofInt_of_le first.1 (Int.lt_of_le_of_lt first.2 (by decide))
      have later (count : Nat) :
          IsInt ((Int32.ofInt (initial.toInt + incr.toInt)).toInt +
            partialSum incrs count) := by
        have next := inRange (count + 1)
        rwa [partialSum_succ, ← Int.add_assoc, ← sum] at next
      obtain ⟨after, final, rest, finalGot, total⟩ :=
        inductionHypothesis middleNamed middleGot later
      refine ⟨after, final, ?_, finalGot, ?_⟩
      · simp only [CJSON.incrementAll, called, rest, Outcome.ok_bind]
        rfl
      · rw [total, sum, List.map_cons, List.sum_cons, Int.add_assoc]

/-- Without a number of the name nothing is incremented. -/
theorem NamedObject.incrAttributeValueInt_of_absent
    {object : CJSON}
    {key : Bytes}
    (named : object.NamedObject)
    (absent : ∀ member ∈ object.child, member.name = some key →
      member.type ≠ .number)
    (next : List CJSON)
    (incr : Int32) :
    CJSON.incrAttributeValueInt (object :: next) key incr =
      .ok (false, object :: next) := by
  have none : ∀ item ∈ object.child, ¬ IsAttribute key isNumber item :=
    fun item present wanted =>
      absent item present wanted.1 (of_decide_eq_true wanted.2)
  have got : getAttributeValueInt (object :: next) key = .ok Option.none := by
    rw [getAttributeValueInt, named.getAttribute rfl,
      findAttribute_of_none named.named none]
    rfl
  rw [CJSON.incrAttributeValueInt, got, Outcome.ok_bind]
  rfl

/-- After a setter of numbers or strings the getter of the same type answers with
the value, whatever the members of the object; increments add up, and a number
that is not there is not incremented. -/
theorem getAttribute_after_setAttribute
    {object : CJSON}
    (named : object.NamedObject)
    (next : List CJSON)
    (key : CString) :
    (∀ valueint, ∃ after,
      setAttributeValueInt (object :: next) key.val valueint =
          .ok (after :: next) ∧
        getAttributeValueInt (after :: next) key.val = .ok (some valueint)) ∧
    (∀ valuedouble, ∃ after,
      setAttributeValueDouble (object :: next) key.val valuedouble =
          .ok (after :: next) ∧
        getAttributeValueDouble (after :: next) key.val =
          .ok (some valuedouble)) ∧
    (∀ valuestring : CString, ∃ after,
      setAttributeValueString (object :: next) key.val valuestring.val =
          .ok (after :: next) ∧
        getAttributeValueString (after :: next) key.val =
          .ok (some valuestring.val)) ∧
    (∀ initial incrs,
      getAttributeValueInt (object :: next) key.val = .ok (some initial) →
        (∀ count, IsInt (initial.toInt + partialSum incrs count)) →
          ∃ after final,
            incrementAll (object :: next) key.val incrs =
                .ok (incrs.map fun _ => true, after :: next) ∧
              getAttributeValueInt (after :: next) key.val = .ok (some final) ∧
              final.toInt = initial.toInt + (incrs.map Int32.toInt).sum) ∧
    ((∀ member ∈ object.child, member.name = some key.val →
        member.type ≠ .number) →
      ∀ incr,
        incrAttributeValueInt (object :: next) key.val incr =
          .ok (false, object :: next)) := by
  refine ⟨fun valueint => ?_, named.setAttributeValueDouble next key,
    named.setAttributeValueString next key,
    fun initial incrs => named.incrementAll,
    fun absent => named.incrAttributeValueInt_of_absent absent next⟩
  obtain ⟨after, called, -, got⟩ := named.setAttributeValueInt next key valueint
  exact ⟨after, called, got⟩

/-- The attribute `A` is set although `a` is replaced. -/
theorem getAttribute_after_setAttribute_both_cases :
    ∃ after,
      setAttributeValueString [bothCases] (ascii ['A']) (ascii ['z']) =
          .ok [after] ∧
        getAttributeValueString [after] (ascii ['A']) =
          .ok (some (ascii ['z'])) := by
  obtain ⟨-, -, strings, -⟩ :=
    @getAttribute_after_setAttribute bothCases (by decide) [] (keyOf ['A'])
  exact strings (keyOf ['z'])

/-! ## Booleans -/

/-- The setter of booleans returns, and it keeps the members in front of the first
boolean of the name. -/
theorem NamedObject.setAttributeValueBool
    {object : CJSON}
    (named : object.NamedObject)
    (next : List CJSON)
    (key : Bytes)
    (valuebool : Bool) :
    (∃ before member behind,
      object.child = before ++ member :: behind ∧
        IsAttribute key isBool member ∧
        (∀ item ∈ before, ¬ IsAttribute key isBool item) ∧
        setAttributeValueBool (object :: next) key valuebool =
          .ok ({ object with
              child := before ++
                { member with type := if valuebool then .true else .false } ::
                  behind } :: next)) ∨
      (∀ item ∈ object.child, ¬ IsAttribute key isBool item) ∧
        setAttributeValueBool (object :: next) key valuebool =
          .ok (object.addItemToObject (CString.ofBuffer key)
            (some (if valuebool then createTrue else createFalse)) :: next) := by
  have members : subitems isBool object next = object.child :=
    subitems_of_object named.isObject rfl next
  unfold CJSON.setAttributeValueBool
  simp only [members]
  cases first : object.child.find? fun item => decide (IsAttribute key isBool item)
      with
  | some member =>
      left
      obtain ⟨before, behind, split, wanted, none⟩ := KeyedList.exists_first first
      have beforeNamed : ∀ item ∈ before, item.string.isSome :=
        fun item isBefore => named.named item
          (split ▸ List.mem_append_left _ isBefore)
      refine ⟨before, member, behind, split, wanted, none, ?_⟩
      rw [split, findAttribute_of_first beforeNamed none wanted, Outcome.ok_bind]
      simp only [@writeSubitem_of_object isBool object named.isObject rfl next, split]
      have changed := KeyedList.modify_append before (member :: behind) 0
        ({ · with type := if valuebool then .true else .false })
      rw [Nat.add_zero, List.modify_zero_cons] at changed
      rw [changed]
      rfl
  | none =>
      right
      have none : ∀ item ∈ object.child, ¬ IsAttribute key isBool item := by
        simpa using List.find?_eq_none.mp first
      refine ⟨none, ?_⟩
      rw [findAttribute_of_none named.named none, Outcome.ok_bind]
      rfl

/-- The getter of booleans answers with a value exactly if that is the value of
the first member with the name. -/
theorem NamedObject.getAttributeValueBool_iff
    {object : CJSON}
    (named : object.NamedObject)
    (next : List CJSON)
    (key : Bytes)
    (valuebool : Bool) :
    getAttributeValueBool (object :: next) key = .ok (some valuebool) ↔
      ∃ member ∈ object.itemNamed key,
        member.type = if valuebool then .true else .false := by
  rw [getAttributeValueBool, named.getAttribute (by rfl), itemNamed]
  cases found : KeyedList.lookup name key object.child with
  | none =>
      have absent := KeyedList.lookup_eq_none_iff.mp found
      have none : ∀ item ∈ object.child, ¬ IsAttribute key (fun _ => true) item :=
        fun item present wanted =>
          absent (KeyedList.mem_names_iff.mpr ⟨item, present, wanted.1⟩)
      rw [findAttribute_of_none named.named none]
      simp [Except.map]
  | some member =>
      obtain ⟨before, behind, split, memberNamed, none⟩ :=
        KeyedList.exists_split_of_lookup found
      have beforeNamed : ∀ item ∈ before, item.string.isSome :=
        fun item isBefore => named.named item
          (split ▸ List.mem_append_left _ isBefore)
      have noneBefore : ∀ item ∈ before,
          ¬ IsAttribute key (fun _ => true) item :=
        fun item isBefore wanted => none item isBefore wanted.1
      rw [split, findAttribute_of_first beforeNamed noneBefore ⟨memberNamed, rfl⟩]
      cases kind : member.type <;> cases valuebool <;> simp [Except.map, kind]

/-- Without a boolean of the name the first item of the name is none. -/
theorem not_isBool_of_lookup
    {items : List CJSON}
    {key : Bytes}
    {member : CJSON}
    (none : ∀ item ∈ items, ¬ IsAttribute key isBool item)
    (found : KeyedList.lookup name key items = some member) :
    isBool member.type ≠ true := by
  obtain ⟨before, behind, rfl, memberNamed, -⟩ :=
    KeyedList.exists_split_of_lookup found
  exact fun bool => none member
    (List.mem_append_right before List.mem_cons_self) ⟨memberNamed, bool⟩

/-- A key that is stored is read back exactly if it is a C string. -/
theorem ofBuffer_val_eq_iff (key : Bytes) :
    (CString.ofBuffer key).val = key ↔ (0 : UInt8) ∉ key := by
  constructor
  · intro same
    exact same ▸ (CString.ofBuffer key).property
  · exact cString_eq_self

/-- The value is written to the first boolean of the name, behind members that are
none. -/
theorem lookup_write_iff
    {before behind : List CJSON}
    {member : CJSON}
    {key : Bytes}
    {written : CJSONType}
    (wanted : IsAttribute key isBool member)
    (none : ∀ item ∈ before, ¬ IsAttribute key isBool item)
    (bool : isBool written = true) :
    (∃ first ∈ KeyedList.lookup name key
          (before ++ { member with type := written } :: behind),
        first.type = written) ↔
      ∀ first ∈ KeyedList.lookup name key (before ++ member :: behind),
        isBool first.type = true := by
  rw [KeyedList.lookup_append, KeyedList.lookup_append]
  cases found : KeyedList.lookup name key before with
  | none =>
      have sameName : ({ member with type := written } : CJSON).name = some key :=
        wanted.1
      rw [KeyedList.lookup_cons_of_eq sameName, KeyedList.lookup_cons_of_eq wanted.1]
      simp [wanted.2]
  | some first =>
      have other := not_isBool_of_lookup none found
      refine iff_of_false ?_ fun all => other (all first (by simp))
      simp only [Option.some_or, Option.mem_def, Option.some.injEq, exists_eq_left']
      exact fun same => other (same ▸ bool)

/-- Without a boolean of the name a new one is read where no member has the
name. -/
theorem lookup_added_iff
    {items : List CJSON}
    {key : Bytes}
    {new : CJSON}
    (none : ∀ item ∈ items, ¬ IsAttribute key isBool item)
    (newName : new.name = some (CString.ofBuffer key).val)
    (bool : isBool new.type = true) :
    (∃ first ∈ KeyedList.lookup name key (items ++ [new]),
        first.type = new.type) ↔
      (0 : UInt8) ∉ key ∧
        ∀ first ∈ KeyedList.lookup name key items, isBool first.type = true := by
  rw [KeyedList.lookup_concat newName, ← ofBuffer_val_eq_iff]
  cases found : KeyedList.lookup name key items with
  | none => by_cases same : (CString.ofBuffer key).val = key <;> simp [same]
  | some first =>
      have other := not_isBool_of_lookup none found
      refine iff_of_false ?_ fun both => other (both.2 first rfl)
      simp only [Option.some_or, Option.mem_def, Option.some.injEq, exists_eq_left']
      exact fun same => other (same ▸ bool)

/-- The getter of booleans after the setter answers with the value exactly if the
first member with the name is a boolean, or there is none and the key is a C
string. -/
theorem getAttributeValueBool_after_set_iff
    {object : CJSON}
    (named : object.NamedObject)
    (next : List CJSON)
    (key : Bytes)
    (valuebool : Bool) :
    ∃ after,
      setAttributeValueBool (object :: next) key valuebool =
          .ok (after :: next) ∧
        (getAttributeValueBool (after :: next) key = .ok (some valuebool) ↔
          (0 : UInt8) ∉ key ∧
            ∀ member ∈ object.itemNamed key, isBool member.type = true) := by
  have bool : isBool (if valuebool then .true else .false) = true := by
    cases valuebool <;> rfl
  rcases named.setAttributeValueBool next key valuebool with
    ⟨before, member, behind, split, wanted, none, called⟩ | ⟨none, called⟩
  · refine ⟨_, called, ?_⟩
    have spelled : (0 : UInt8) ∉ key := by
      obtain ⟨string, -, rfl⟩ := Option.map_eq_some_iff.mp wanted.1
      exact string.property
    have allNamed := named.named
    rw [split, List.forall_mem_append, List.forall_mem_cons] at allNamed
    obtain ⟨beforeNamed, memberNamed, behindNamed⟩ := allNamed
    have afterNamed : NamedObject { object with
        child := before ++
          { member with type := if valuebool then .true else .false } ::
            behind } := by
      refine ⟨named.isObject, ?_⟩
      rw [List.forall_mem_append, List.forall_mem_cons]
      exact ⟨beforeNamed, memberNamed, behindNamed⟩
    rw [afterNamed.getAttributeValueBool_iff, and_iff_right spelled, itemNamed,
      itemNamed, split]
    exact lookup_write_iff wanted none bool
  · refine ⟨_, called, ?_⟩
    have afterNamed : NamedObject (object.addItemToObject (CString.ofBuffer key)
        (some (if valuebool then createTrue else createFalse))) := by
      refine ⟨named.isObject, ?_⟩
      rw [addItemToObject, addItemToArray, List.forall_mem_append]
      exact ⟨named.named, List.forall_mem_singleton.mpr rfl⟩
    rw [afterNamed.getAttributeValueBool_iff, itemNamed, itemNamed]
    cases valuebool <;> exact lookup_added_iff none rfl rfl

/-- An object with a number under a name. -/
def numberUnderKey : CJSON :=
  createObject.addItemToObject (keyOf ['a']) (some (createNumber 1))

/-- The boolean that is set under the name of a number is added behind the number,
and it is not read. -/
theorem getAttributeValueBool_after_set_number :
    ∃ after,
      setAttributeValueBool [numberUnderKey] (ascii ['a']) true = .ok [after] ∧
        getAttributeValueBool [after] (ascii ['a']) ≠ .ok (some true) := by
  refine ⟨_, rfl, fun got => ?_⟩
  cases got

/-- The value of a boolean that is set under a new name is read. -/
theorem getAttributeValueBool_after_set_new :
    ∃ after,
      setAttributeValueBool [numberUnderKey] (ascii ['b']) true = .ok [after] ∧
        (getAttributeValueBool [after] (ascii ['b']) = .ok (some true) ↔
          (0 : UInt8) ∉ ascii ['b'] ∧
            ∀ member ∈ numberUnderKey.itemNamed (ascii ['b']),
              isBool member.type = true) :=
  getAttributeValueBool_after_set_iff (by decide) [] (ascii ['b']) true

end CJSON
end ProtobufSandbox
