import ProtobufSandbox.Json.CaseNames
import ProtobufSandbox.Json.GetAfterSet

/-!
# Objects of remote calls

`createRPCObj` and the parameters that it stores. The map of the parameters tells
keys apart byte by byte, the insertion ignores case: what is stored is the map
exactly if its keys are distinct ignoring case.
-/

namespace ProtobufSandbox

/-- A `std::map<string, string>`: its entries in the order of their keys. -/
structure StringMap where
  entries : List (Bytes × Bytes)
  sorted : entries.Pairwise fun first second => first.1 < second.1

/-- No key and no value has a zero byte. -/
def StringMap.CStrings (Args : StringMap) : Prop :=
  ∀ entry ∈ Args.entries, (0 : UInt8) ∉ entry.1 ∧ (0 : UInt8) ∉ entry.2

/-- No two keys are equal ignoring case. -/
def StringMap.CaseDistinct (Args : StringMap) : Prop :=
  (Args.entries.map fun entry => entry.1.map toLower).Nodup

instance (Args : StringMap) : Decidable Args.CStrings :=
  inferInstanceAs (Decidable (∀ entry ∈ Args.entries, _))

instance (Args : StringMap) : Decidable Args.CaseDistinct :=
  inferInstanceAs (Decidable (List.Nodup _))

namespace CJSON

/-- `createRPCObj(string, int)`. -/
def createRPCObj (method : Bytes) (id : Int32) : CJSON :=
  (createObject.addItemToObject (keyOf ['m', 'e', 't', 'h', 'o', 'd'])
    (some (createString (CString.ofBuffer method)))).addItemToObject
      (keyOf ['i', 'd']) (some (createNumber id.toInt))

/-- `createRPCObj(string, int, map<string, string>)`. -/
def createRPCObjArgs
    (method : Bytes)
    (id : Int32)
    (Args : StringMap) : Except AttributeError (List CJSON) :=
  (addParamsMapString [createRPCObj method id] Args.entries).map Prod.snd

/-- The object has parameters, one for each key, and the getter of strings answers
with the value of each. -/
def RepresentsArgs (RPCObj : CJSON) (Args : StringMap) : Prop :=
  ∃ params next,
    RPCObj.getObjectItem (keyOf ['p', 'a', 'r', 'a', 'm', 's']) = params :: next ∧
      params.type = .object ∧
      (∀ entry ∈ Args.entries,
        getAttributeValueString (params :: next) entry.1 = .ok (some entry.2)) ∧
      params.child.length = Args.entries.length

/-! ## Insertions -/

section Insertions

variable {α : Type}
variable {create : α → CJSON}
variable {update : α → CJSON → Except AttributeError CJSON}

/-- The member that an entry becomes. -/
def paramOf (create : α → CJSON) (entry : Bytes × α) : CJSON :=
  { create entry.2 with string := some (CString.ofBuffer entry.1) }

/-- The name of an entry in lower case. -/
def lowerKey (entry : Bytes × α) : Bytes :=
  (CString.ofBuffer entry.1).val.map toLower

/-- The entries have names that are new, and distinct ignoring case. -/
def NewKeys (args : CJSON) (entries : List (Bytes × α)) : Prop :=
  (entries.map lowerKey).Nodup ∧
    ∀ entry ∈ entries, lowerKey entry ∉ KeyedList.names lowerName args.child

/-- All members are strings with a text. -/
def HoldsStrings (args : CJSON) : Prop :=
  ∀ member ∈ args.child, member.valuestring.isSome

/-- Once the first entry is added, its name is no longer new. -/
theorem newKeys_cons
    {args : CJSON}
    {entry : Bytes × α}
    (new : lowerKey entry ∉ KeyedList.names lowerName args.child)
    (entries : List (Bytes × α)) :
    NewKeys args (entry :: entries) ↔
      NewKeys (args.addItemToArray (paramOf create entry)) entries := by
  have added : KeyedList.names lowerName
      (args.addItemToArray (paramOf create entry)).child =
        KeyedList.names lowerName args.child ++ [lowerKey entry] :=
    KeyedList.names_append _ _
  simp only [NewKeys, added, List.map_cons, List.nodup_cons, List.mem_map,
    List.forall_mem_cons, List.mem_append, List.mem_singleton, not_exists,
    not_and, not_or]
  constructor
  · rintro ⟨⟨apart, distinct⟩, -, others⟩
    exact ⟨distinct, fun other isEntry =>
      ⟨others other isEntry, apart other isEntry⟩⟩
  · rintro ⟨distinct, others⟩
    exact ⟨⟨fun other isEntry => (others other isEntry).2, distinct⟩, new,
      fun other isEntry => (others other isEntry).1⟩

/-- One turn adds a member where no name is like its own, and else it keeps the
number of members. -/
theorem addParam_spec
    (creates : ∀ value, (create value).valuestring.isSome)
    (updates : ∀ value item, item.valuestring.isSome →
      ∃ new, update value item = .ok new ∧ new.valuestring.isSome)
    {args : CJSON}
    (strings : args.HoldsStrings)
    (entry : Bytes × α) :
    ∃ after, addParam create update args entry = .ok after ∧
      after.HoldsStrings ∧ after.type = args.type ∧
      (lowerKey entry ∉ KeyedList.names lowerName args.child →
        after = args.addItemToArray (paramOf create entry)) ∧
      (lowerKey entry ∈ KeyedList.names lowerName args.child →
        after.child.length = args.child.length) := by
  unfold addParam
  cases first : args.indexLike (CString.ofBuffer entry.1) with
  | none =>
      have new : lowerKey entry ∉ KeyedList.names lowerName args.child :=
        indexLike_eq_none_iff.mp first
      refine ⟨args.addItemToArray (paramOf create entry), ?_, ?_, rfl,
        fun _ => rfl, fun old => absurd old new⟩
      · simp only [first]
        rfl
      rw [HoldsStrings, addItemToArray, List.forall_mem_append]
      exact ⟨strings, List.forall_mem_singleton.mpr (creates entry.2)⟩
  | some which =>
      obtain ⟨tmpObj, there, -⟩ := exists_of_indexLike first
      obtain ⟨new, updated, newString⟩ :=
        updates entry.2 tmpObj (strings tmpObj (List.mem_of_getElem? there))
      have old : lowerKey entry ∈ KeyedList.names lowerName args.child := by
        by_contra absent
        rw [indexLike_eq_none_iff.mpr absent] at first
        cases first
      refine ⟨args.replaceItemInArray which new, ?_, ?_, rfl,
        fun absent => absurd old absent, fun _ => ?_⟩
      · simp only [first, there, updated, Outcome.ok_bind]
        rfl
      · intro member isMember
        cases List.mem_or_eq_of_mem_set isMember with
        | inl kept => exact strings member kept
        | inr equal => exact equal ▸ newString
      · exact List.length_set

/-- The loop adds all entries if their names are new, and fewer else. -/
theorem addParams_spec
    (creates : ∀ value, (create value).valuestring.isSome)
    (updates : ∀ value item, item.valuestring.isSome →
      ∃ new, update value item = .ok new ∧ new.valuestring.isSome)
    {args : CJSON}
    (strings : args.HoldsStrings)
    (entries : List (Bytes × α)) :
    ∃ after, addParams create update args entries = .ok after ∧
      after.type = args.type ∧
      (NewKeys args entries →
        after.child = args.child ++ entries.map (paramOf create)) ∧
      (¬ NewKeys args entries →
        after.child.length < args.child.length + entries.length) := by
  induction entries generalizing args with
  | nil =>
      refine ⟨args, rfl, rfl, fun _ => (List.append_nil _).symm, fun old => ?_⟩
      exact absurd ⟨List.nodup_nil, List.forall_mem_nil _⟩ old
  | cons entry entries inductionHypothesis =>
      obtain ⟨middle, added, middleStrings, middleType, adds, keeps⟩ :=
        addParam_spec creates updates strings entry
      obtain ⟨after, rest, afterType, all, fewer⟩ :=
        inductionHypothesis middleStrings
      refine ⟨after, ?_, afterType.trans middleType, ?_⟩
      · rw [addParams, added, Outcome.ok_bind, rest]
      by_cases old : lowerKey entry ∈ KeyedList.names lowerName args.child
      · have atMost :
            after.child.length ≤ middle.child.length + entries.length := by
          by_cases new : NewKeys middle entries
          · rw [all new, List.length_append, List.length_map]
          · exact Nat.le_of_lt (fewer new)
        refine ⟨fun new => absurd old (new.2 entry List.mem_cons_self), fun _ => ?_⟩
        rw [keeps old] at atMost
        rw [List.length_cons]
        omega
      · obtain rfl := adds old
        rw [@newKeys_cons α create args entry old]
        refine ⟨fun new => ?_, fun notNew => ?_⟩
        · rw [all new, addItemToArray, List.map_cons, List.append_assoc,
            List.singleton_append]
        · have shorter := fewer notNew
          rw [addItemToArray, List.length_append, List.length_singleton] at shorter
          rw [List.length_cons]
          omega

/-- An object without parameters gets new ones at its end. -/
theorem addParamsMap_of_absent
    (creates : ∀ value, (create value).valuestring.isSome)
    (updates : ∀ value item, item.valuestring.isSome →
      ∃ new, update value item = .ok new ∧ new.valuestring.isSome)
    {item : CJSON}
    {next : List CJSON}
    (absent : doesAttributeExist (item :: next)
      (keyOf ['p', 'a', 'r', 'a', 'm', 's']).val false = .ok false)
    (entries : List (Bytes × α)) :
    ∃ params : CJSON,
      addParamsMap create update (item :: next) entries =
          .ok (true, item.addItemToArray params :: next) ∧
        params.type = .object ∧
        params.string = some (keyOf ['p', 'a', 'r', 'a', 'm', 's']) ∧
        (NewKeys createObject entries →
          params.child = entries.map (paramOf create)) ∧
        (¬ NewKeys createObject entries →
          params.child.length < entries.length) := by
  obtain ⟨params, added, type, all, fewer⟩ :=
    @addParams_spec α create update creates updates
      { createObject with string := some (keyOf ['p', 'a', 'r', 'a', 'm', 's']) }
      (List.forall_mem_nil _) entries
  refine ⟨params, ?_, type, addParams_string added, all, fun old => ?_⟩
  · rw [addParamsMap]
    simp only [absent, added, Outcome.ok_bind]
    rfl
  · have shorter := fewer old
    rwa [createObject, newItem, List.length_nil, Nat.zero_add] at shorter

end Insertions

/-! ## The object -/

/-- The getter of strings answers with the value of an entry among members with
distinct names. -/
theorem getAttributeValueString_params
    {params : CJSON}
    {entries : List (Bytes × Bytes)}
    (isObject : params.type = .object)
    (members : params.child =
      entries.map (paramOf fun value => createString (CString.ofBuffer value)))
    (nonzero : ∀ entry ∈ entries, (0 : UInt8) ∉ entry.1 ∧ (0 : UInt8) ∉ entry.2)
    (distinct : (entries.map Prod.fst).Nodup)
    (next : List CJSON)
    {entry : Bytes × Bytes}
    (present : entry ∈ entries) :
    getAttributeValueString (params :: next) entry.1 = .ok (some entry.2) := by
  have spelled (other : Bytes × Bytes) (isEntry : other ∈ entries) :
      (CString.ofBuffer other.1).val = other.1 :=
    cString_eq_self (nonzero other isEntry).1
  have named : params.NamedObject := by
    refine ⟨isObject, fun member isMember => ?_⟩
    rw [members] at isMember
    obtain ⟨other, -, rfl⟩ := List.mem_map.mp isMember
    rfl
  obtain ⟨before, behind, split⟩ := List.append_of_mem present
  have wanted : IsAttribute entry.1 isString
      (paramOf (fun value => createString (CString.ofBuffer value)) entry) :=
    ⟨congrArg some (spelled entry present), rfl⟩
  have none : ∀ item ∈ before.map
      (paramOf fun value => createString (CString.ofBuffer value)),
      ¬ IsAttribute entry.1 isString item := by
    intro item isBefore same
    obtain ⟨other, isOther, rfl⟩ := List.mem_map.mp isBefore
    have isEntry : other ∈ entries := split ▸ List.mem_append_left _ isOther
    have equal : other.1 = entry.1 :=
      (spelled other isEntry).symm.trans (Option.some.inj same.1)
    rw [split, List.map_append, List.map_cons, List.nodup_append'] at distinct
    exact distinct.2.2 (List.mem_map.mpr ⟨other, isOther, equal⟩) List.mem_cons_self
  rw [getAttributeValueString, named.getAttribute rfl, members, split,
    List.map_append, List.map_cons, findAttribute_of_first _ none wanted]
  · exact congrArg (fun value => Except.ok (some value))
      (cString_eq_self (nonzero entry present).2)
  · intro item isBefore
    obtain ⟨other, -, rfl⟩ := List.mem_map.mp isBefore
    rfl

/-- The text of a parameter that is there is copied over. -/
def updateText (value : Bytes) (tmpObj : CJSON) : Except AttributeError CJSON :=
  match tmpObj.valuestring with
  | none => .error .nullString
  | some _ => .ok { tmpObj with valuestring := some (CString.ofBuffer value) }

theorem addParamsMapString_eq :
    addParamsMapString =
      addParamsMap (fun value => createString (CString.ofBuffer value)) updateText :=
  rfl

theorem exists_updateText
    (value : Bytes)
    (tmpObj : CJSON)
    (isString : tmpObj.valuestring.isSome) :
    ∃ new, updateText value tmpObj = .ok new ∧ new.valuestring.isSome := by
  obtain ⟨valuestring, present⟩ := Option.isSome_iff_exists.mp isString
  rw [updateText, present]
  exact ⟨_, rfl, rfl⟩

/-- The object of a call without parameters has none. -/
theorem doesAttributeExist_createRPCObj (method : Bytes) (id : Int32) :
    doesAttributeExist [createRPCObj method id]
      (keyOf ['p', 'a', 'r', 'a', 'm', 's']).val false = .ok false := by
  rw [doesAttributeExist_of_container (Or.inr rfl)]
  refine congrArg Except.ok (decide_eq_false fun member => ?_)
  have named : (keyOf ['p', 'a', 'r', 'a', 'm', 's']).val ∈
      [(keyOf ['m', 'e', 't', 'h', 'o', 'd']).val, (keyOf ['i', 'd']).val] :=
    member.2
  revert named
  decide

/-- What `createRPCObj` returns: the parameters stand behind the method and the
id. -/
theorem createRPCObjArgs_spec
    (method : Bytes)
    (id : Int32)
    (Args : StringMap) :
    ∃ params : CJSON,
      createRPCObjArgs method id Args =
          .ok [(createRPCObj method id).addItemToArray params] ∧
        ((createRPCObj method id).addItemToArray params).getObjectItem
          (keyOf ['p', 'a', 'r', 'a', 'm', 's']) = [params] ∧
        params.type = .object ∧
        (NewKeys createObject Args.entries →
          params.child = Args.entries.map
            (paramOf fun value => createString (CString.ofBuffer value))) ∧
        (¬ NewKeys createObject Args.entries →
          params.child.length < Args.entries.length) := by
  rw [createRPCObjArgs, addParamsMapString_eq]
  obtain ⟨params, called, type, named, members⟩ :=
    @addParamsMap_of_absent _ (fun value => createString (CString.ofBuffer value))
      updateText (fun _ => rfl) exists_updateText _ _
      (doesAttributeExist_createRPCObj method id) Args.entries
  refine ⟨params, congrArg (Except.map Prod.snd) called, ?_, type, members⟩
  have like : params.namedLike (keyOf ['p', 'a', 'r', 'a', 'm', 's']) = true :=
    namedLike_of_name (congrArg (Option.map Subtype.val) named)
  have split : ((createRPCObj method id).addItemToArray params).child =
      (createRPCObj method id).child ++ [params] := rfl
  have methodOther : strcasecmp (some (keyOf ['m', 'e', 't', 'h', 'o', 'd']))
      (some (keyOf ['p', 'a', 'r', 'a', 'm', 's'])) ≠ 0 := by decide
  have idOther : strcasecmp (some (keyOf ['i', 'd']))
      (some (keyOf ['p', 'a', 'r', 'a', 'm', 's'])) ≠ 0 := by decide
  refine getObjectItem_append split like ?_
  exact List.forall_mem_cons.mpr
    ⟨decide_eq_false methodOther,
      List.forall_mem_singleton.mpr (decide_eq_false idOther)⟩

/-- The parameters of the object of a call are the entries of the map exactly if
no two keys are equal ignoring case. -/
theorem createRPCObjArgs_represents_iff
    (method : Bytes)
    (id : Int32)
    {Args : StringMap}
    (nonzero : Args.CStrings) :
    ∃ RPCObj, createRPCObjArgs method id Args = .ok [RPCObj] ∧
      (RPCObj.RepresentsArgs Args ↔ Args.CaseDistinct) := by
  obtain ⟨params, created, found, isObject, all, fewer⟩ :=
    createRPCObjArgs_spec method id Args
  have lower : Args.entries.map lowerKey =
      Args.entries.map fun entry => entry.1.map toLower :=
    List.map_congr_left fun entry present =>
      congrArg (List.map toLower) (cString_eq_self (nonzero entry present).1)
  have newKeys : NewKeys createObject Args.entries ↔ Args.CaseDistinct := by
    rw [NewKeys, StringMap.CaseDistinct, lower]
    exact and_iff_left fun entry _ => List.not_mem_nil
  refine ⟨_, created, ?_⟩
  constructor
  · rintro ⟨own, next, looked, -, -, size⟩
    rw [found] at looked
    obtain ⟨rfl, rfl⟩ := List.cons.inj looked
    by_contra collide
    exact absurd size (Nat.ne_of_lt (fewer (newKeys.not.mpr collide)))
  · intro distinct
    have members := all (newKeys.mpr distinct)
    refine ⟨params, [], found, isObject, fun entry present => ?_, ?_⟩
    · have apart : (Args.entries.map Prod.fst).Nodup := by
        apply List.Nodup.of_map (List.map toLower)
        rw [List.map_map]
        exact distinct
      exact getAttributeValueString_params isObject members nonzero apart []
        present
    · rw [members, List.length_map]

/-- The map that has the keys `A` and `a`. -/
def caseMap : StringMap where
  entries := [(ascii ['A'], ascii ['1']), (ascii ['a'], ascii ['2'])]
  sorted := by decide

/-- The value of the second of two keys that differ in case overwrites the one of
the first. -/
theorem not_createRPCObjArgs_represents_case :
    ∃ RPCObj, createRPCObjArgs (ascii ['m']) 1 caseMap = .ok [RPCObj] ∧
      ¬ RPCObj.RepresentsArgs caseMap := by
  obtain ⟨params, created, found, -, -, fewer⟩ :=
    createRPCObjArgs_spec (ascii ['m']) 1 caseMap
  refine ⟨_, created, ?_⟩
  rintro ⟨own, next, looked, -, -, size⟩
  rw [found] at looked
  obtain ⟨rfl, rfl⟩ := List.cons.inj looked
  have collide : ¬ NewKeys createObject caseMap.entries :=
    fun new => absurd new.1 (by decide)
  exact absurd size (Nat.ne_of_lt (fewer collide))

/-- A map with keys in both cases that stay distinct ignoring case. -/
def severalMap : StringMap where
  entries := [(ascii ['B'], ascii ['1']), (ascii ['a'], ascii ['2']), (ascii ['c'], [])]
  sorted := by decide

/-- Every key has its value. -/
theorem createRPCObjArgs_represents_several :
    ∃ RPCObj, createRPCObjArgs (ascii ['m']) 1 severalMap = .ok [RPCObj] ∧
      RPCObj.RepresentsArgs severalMap := by
  obtain ⟨RPCObj, created, exactly⟩ :=
    createRPCObjArgs_represents_iff (ascii ['m']) 1 (show severalMap.CStrings by decide)
  exact ⟨RPCObj, created, exactly.mpr (by decide)⟩

end CJSON
end ProtobufSandbox
