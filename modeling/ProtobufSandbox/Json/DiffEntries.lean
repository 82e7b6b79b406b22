import ProtobufSandbox.Json.DiffStrings

/-!
# Diffs without an entry

Where names are distinct ignoring case, each lookup of a diff finds the member with
exactly the name, and an object that extends another one gives no entry.
-/

namespace ProtobufSandbox
namespace CJSON

/-! ## Names -/

/-- The names of an object, and those of the objects in it at any depth, are not
empty and distinct ignoring case. -/
inductive WellNamed : CJSON → Prop
  | object
      {object : CJSON}
      (type : object.type = .object)
      (named : ∀ member ∈ object.child, member.HasName)
      (distinct : CaseDistinct object.child)
      (nested : ∀ member ∈ object.child, member.type = .object → WellNamed member) :
      WellNamed object

/-- A member is what a lookup of its name finds. -/
theorem getObjectItem_of_mem
    {object member item1 : CJSON}
    (distinct : CaseDistinct object.child)
    (isMember : member ∈ object.child)
    (name : member.string = item1.string)
    (named : item1.HasName) :
    ∃ siblings, object.getObjectItem item1.key = member :: siblings := by
  obtain ⟨string, present, -⟩ := (hasName_iff item1).mp named
  obtain ⟨before, behind, split⟩ := List.append_of_mem isMember
  refine ⟨behind, getObjectItem_of_caseDistinct distinct split ?_⟩
  have isKey : item1.key = string := by rw [key, present, Option.getD_some]
  rw [isKey, CJSON.name, name, present, Option.map_some]

/-- An item is found in an object exactly if a member has its name. -/
theorem found_iff
    {item1 JSONObj2 : CJSON}
    (named : item1.HasName)
    (object : JSONObj2.type = .object)
    (next2 : List CJSON) :
    Visit.Found ⟨item1, JSONObj2, next2⟩ ↔
      ∃ member ∈ JSONObj2.child, member.string = item1.string := by
  obtain ⟨string, present, notEmpty⟩ := (hasName_iff item1).mp named
  have isKey : item1.key = string := by rw [key, present, Option.getD_some]
  have container : JSONObj2.IsContainer := .inr object
  rw [Visit.Found, attributeExists, if_pos container, existsIn_iff, isKey,
    and_iff_right notEmpty, KeyedList.mem_names_iff]
  have sameName (member : CJSON) :
      member.name = some string.val ↔ member.string = item1.string := by
    rw [present, CJSON.name]
    exact (Option.map_injective Subtype.val_injective).eq_iff' rfl
  simp only [sameName]

section Lookups

variable {JSONObj1 item1 JSONObj2 member : CJSON}

/-- What an item is compared with is the member of its name. -/
theorem counterpart_of_mem
    (wellNamed : JSONObj2.WellNamed)
    (named : item1.HasName)
    (isMember : member ∈ JSONObj2.child)
    (name : member.string = item1.string)
    (next2 : List CJSON) :
    Visit.Found ⟨item1, JSONObj2, next2⟩ ∧
      Visit.counterpart ⟨item1, JSONObj2, next2⟩ = some member := by
  obtain ⟨type, -, distinct, -⟩ := wellNamed
  refine ⟨(found_iff named type next2).mpr ⟨member, isMember, name⟩, ?_⟩
  obtain ⟨siblings, looked⟩ := getObjectItem_of_mem distinct isMember name named
  rw [Visit.counterpart, looked, List.head?_cons]

/-- The recursive call is given the member object and the member of its name. -/
theorem subObjects_of_mem
    (wellNamed1 : JSONObj1.WellNamed)
    (wellNamed2 : JSONObj2.WellNamed)
    (isItem : item1 ∈ JSONObj1.child)
    (object : item1.type = .object)
    (isMember : member ∈ JSONObj2.child)
    (name : member.string = item1.string)
    (next2 : List CJSON) :
    ∃ siblings2, subObjects JSONObj1 item1 JSONObj2 next2 =
      some (item1, member, siblings2) := by
  obtain ⟨-, named, distinct1, -⟩ := wellNamed1
  obtain ⟨type2, -, distinct2, -⟩ := wellNamed2
  have found := (found_iff (named item1 isItem) type2 next2).mpr ⟨member, isMember, name⟩
  obtain ⟨siblings1, looked1⟩ :=
    getObjectItem_of_mem distinct1 isItem rfl (named item1 isItem)
  obtain ⟨siblings2, looked2⟩ :=
    getObjectItem_of_mem distinct2 isMember name (named item1 isItem)
  refine ⟨siblings2, ?_⟩
  rw [subObjects, if_pos ⟨object, found⟩]
  simp only [looked1, looked2]

end Lookups

/-- What passes from two objects to two members of one name holds along the walk. -/
theorem forall_visits_of_wellNamed
    {holds : CJSON → CJSON → Prop}
    {good : Visit → Prop}
    (step : ∀ {JSONObj1 JSONObj2 item1}, JSONObj1.WellNamed → JSONObj2.WellNamed →
      holds JSONObj1 JSONObj2 → item1 ∈ JSONObj1.child → ∀ next2,
        good ⟨item1, JSONObj2, next2⟩ ∧
          (item1.type = .object → ∃ member ∈ JSONObj2.child,
            member.string = item1.string ∧ member.type = .object ∧
              holds item1 member))
    {JSONObj1 JSONObj2 : CJSON}
    (wellNamed1 : JSONObj1.WellNamed)
    (wellNamed2 : JSONObj2.WellNamed)
    (start : holds JSONObj1 JSONObj2)
    (next2 : List CJSON) :
    ∀ visit ∈ visits JSONObj1 JSONObj2 next2, good visit := by
  refine @forall_visits
    (fun first second => first.WellNamed ∧ second.WellNamed ∧ holds first second) good
    ?_ JSONObj1 JSONObj2 ⟨wellNamed1, wellNamed2, start⟩ next2
  rintro first second next item1 ⟨wellNamed1, wellNamed2, start⟩ isItem
  obtain ⟨here, further⟩ := step wellNamed1 wellNamed2 start isItem next
  refine ⟨here, fun subs found => ?_⟩
  obtain ⟨⟨object, -⟩, -, -⟩ := of_subObjects found
  obtain ⟨member, isMember, name, memberObject, below⟩ := further object
  obtain ⟨siblings2, known⟩ :=
    subObjects_of_mem wellNamed1 wellNamed2 isItem object isMember name next
  obtain rfl := Option.some.inj (found.symm.trans known)
  obtain ⟨-, -, -, nested1⟩ := wellNamed1
  obtain ⟨-, -, -, nested2⟩ := wellNamed2
  exact ⟨nested1 item1 isItem object, nested2 member isMember memberObject, below⟩

/-- The walk of an object with such names comes to items with names only. -/
theorem named_of_mem_visits
    {JSONObj1 : CJSON}
    (wellNamed : JSONObj1.WellNamed)
    (JSONObj2 : CJSON)
    (next2 : List CJSON) :
    ∀ visit ∈ visits JSONObj1 JSONObj2 next2, visit.item1.HasName := by
  refine @forall_visits (fun first _ => first.WellNamed) _ ?_ _ _ wellNamed next2
  rintro first second next item1 ⟨-, named, distinct, nested⟩ isItem
  refine ⟨named item1 isItem, fun subs found => ?_⟩
  obtain ⟨⟨object, -⟩, ⟨siblings1, looked⟩, -⟩ := of_subObjects found
  obtain ⟨siblings, known⟩ := getObjectItem_of_mem distinct isItem rfl (named item1 isItem)
  obtain ⟨isFirst, -⟩ := List.cons.inj (known.symm.trans looked)
  exact isFirst ▸ nested item1 isItem object

/-! ## Silent runs -/

/-- A diff answers true and adds no entry, once its fuel lasts. -/
def DiffSilent
    (JSONObj1 JSONObj2 : List CJSON)
    (JSONObjDiff : CJSON) : Prop :=
  ∃ enough, ∀ fuel, enough ≤ fuel → ∃ run,
    diffJSONObjects fuel JSONObj1 JSONObj2 JSONObjDiff = .ok (true, run) ∧
      run.diff = JSONObjDiff

/-- A call that has returned has run along the walk. -/
theorem runAlong_of_diffJSONObjects
    {fuel : Nat}
    {JSONObj1 JSONObj2 JSONObjDiff : CJSON}
    {next1 next2 : List CJSON}
    {answer : Bool}
    {run : DiffRun}
    (returned : diffJSONObjects fuel (JSONObj1 :: next1) (JSONObj2 :: next2)
      JSONObjDiff = .ok (answer, run)) :
    runAlong (visits JSONObj1 JSONObj2 next2) ⟨JSONObjDiff, []⟩ = .ok run := by
  have refines := diffLoop_refines fuel JSONObj1 JSONObj1.child JSONObj2 next2
    ⟨JSONObjDiff, []⟩
  rw [← visits_eq] at refines
  rw [diffJSONObjects_cons] at returned
  cases result : diffLoop fuel JSONObj1 JSONObj1.child JSONObj2 next2 ⟨JSONObjDiff, []⟩ with
  | ok last =>
      rw [result] at returned refines
      cases returned
      exact refines.eq_ok
  | error error =>
      rw [result] at returned
      cases returned

/-- A diff is silent exactly if no item on the walk fails or is reported. -/
theorem diffSilent_iff
    {JSONObj1 : CJSON}
    (wellNamed : JSONObj1.WellNamed)
    (JSONObj2 : CJSON)
    (next1 next2 : List CJSON)
    (JSONObjDiff : CJSON) :
    DiffSilent (JSONObj1 :: next1) (JSONObj2 :: next2) JSONObjDiff ↔
      ∀ visit ∈ visits JSONObj1 JSONObj2 next2, ¬ visit.Fails ∧ ¬ visit.Reports := by
  have does := runAlong_does (named_of_mem_visits wellNamed JSONObj2 next2)
    ⟨JSONObjDiff, []⟩
  constructor
  · rintro ⟨enough, returns⟩ visit isVisit
    obtain ⟨run, returned, unchanged⟩ := returns enough (Nat.le_refl enough)
    rw [runAlong_of_diffJSONObjects returned] at does
    obtain ⟨works, changes⟩ := does
    refine ⟨fun fails => works ⟨visit, isVisit, fails⟩, fun reports => ?_⟩
    have added := changes.added ⟨visit, isVisit, reports⟩
    rw [unchanged] at added
    exact Nat.lt_irrefl _ added
  · intro quiet
    obtain ⟨enough, along⟩ := exists_diffLoop_eq JSONObj1 JSONObj2 next2
    refine ⟨enough, fun fuel isEnough => ?_⟩
    rw [diffJSONObjects_cons, along fuel isEnough]
    cases result : runAlong (visits JSONObj1 JSONObj2 next2) ⟨JSONObjDiff, []⟩ with
    | ok last =>
        rw [result] at does
        refine ⟨last, rfl, does.2.same ?_⟩
        rintro ⟨visit, isVisit, reports⟩
        exact (quiet visit isVisit).2 reports
    | error error =>
        rw [result] at does
        cases error with
        | failed error =>
            obtain ⟨visit, isVisit, fails⟩ := does
            exact absurd fails (quiet visit isVisit).1
        | outOfFuel last => exact absurd does id

/-! ## Extensions -/

/-- Two items of one type with the same number or the same text. What is under
them may differ. -/
structure Agree (item1 item2 : CJSON) : Prop where
  type : item2.type = item1.type
  number : item1.type = .number → item2.valuedouble = item1.valuedouble
  string : item1.type = .string →
    ∃ text, item1.valuestring = some text ∧ item2.valuestring = some text

mutual

/-- An object extends another one if it has every member of it, or an extension of
the member. -/
inductive Extends : CJSON → CJSON → Prop
  | object
      {second first : CJSON}
      (members : ∀ member ∈ first.child, ExtendsMember second member) :
      Extends second first

/-- An object has a member under exactly the same name: an equal scalar, an
extending object, or an array whose elements start with equal ones. -/
inductive ExtendsMember : CJSON → CJSON → Prop
  | scalar
      {second member other : CJSON}
      (isMember : other ∈ second.child)
      (name : other.string = member.string)
      (leaf : ¬ member.IsContainer)
      (agree : Agree member other) :
      ExtendsMember second member
  | object
      {second member other : CJSON}
      (isMember : other ∈ second.child)
      (name : other.string = member.string)
      (object1 : member.type = .object)
      (object2 : other.type = .object)
      (below : Extends other member) :
      ExtendsMember second member
  | array
      {second member other : CJSON}
      {equal rest : List CJSON}
      (isMember : other ∈ second.child)
      (name : other.string = member.string)
      (array1 : member.type = .array)
      (array2 : other.type = .array)
      (elements : other.child = equal ++ rest)
      (agree : List.Forall₂ Agree member.child equal) :
      ExtendsMember second member

end

theorem Agree.not_pairFails
    {item1 item2 : CJSON}
    (agree : Agree item1 item2) :
    ¬ PairFails item1 item2 := by
  rintro ⟨string, none2 | none1⟩
  · obtain ⟨text, -, present2⟩ := agree.string string
    simp [CJSON.text, present2] at none2
  · obtain ⟨text, present1, -⟩ := agree.string string
    simp [CJSON.text, present1] at none1

theorem areSame_self (number : Rat) : AreSame number number := by
  rw [AreSame, sub_self, abs_zero]
  decide +kernel

theorem Agree.not_pairReports
    {item1 item2 : CJSON}
    (agree : Agree item1 item2) :
    ¬ PairReports item1 item2 := by
  rintro (⟨type1, type2⟩ | ⟨type1, type2⟩ | ⟨type1, type2⟩ | ⟨number, apart⟩ |
    ⟨string, apart⟩)
  · rw [agree.type, type1] at type2
    cases type2
  · exact type2 (agree.type.trans type1)
  · exact type2 (agree.type.trans type1)
  · rw [agree.number number] at apart
    exact apart (areSame_self _)
  · obtain ⟨text, present1, present2⟩ := agree.string string
    exact apart (by rw [CJSON.text, CJSON.text, present1, present2])

/-- Equal elements at the start make equal pairs. -/
theorem agree_of_elementPairs
    {item1 item2 : CJSON}
    {equal rest : List CJSON}
    (elements : item2.child = equal ++ rest)
    (agree : List.Forall₂ Agree item1.child equal) :
    ∀ pair ∈ elementPairs item1 item2, Agree pair.1 pair.2 := by
  obtain ⟨length, agrees⟩ := List.forall₂_iff_zip.mp agree
  have pairs : elementPairs item1 item2 = item1.child.zip equal := by
    have split := @List.zip_append _ _ item1.child [] equal rest length
    rwa [List.append_nil, List.zip_nil_left, List.append_nil, ← elements] at split
  rw [pairs]
  exact fun pair isPair => agrees isPair

/-- A container is compared in its own branch only. -/
theorem not_pair_of_container
    {item1 : CJSON}
    (container : item1.IsContainer)
    (item2 : CJSON) :
    ¬ PairFails item1 item2 ∧ ¬ PairReports item1 item2 := by
  rcases container with type | type
  · simp [PairFails, PairReports, type]
  · simp [PairFails, PairReports, type]

/-- At an item that the second object extends nothing fails and nothing is
reported. -/
theorem quiet_of_extendsMember
    {item1 JSONObj2 : CJSON}
    (wellNamed : JSONObj2.WellNamed)
    (named : item1.HasName)
    (extension : ExtendsMember JSONObj2 item1)
    (next2 : List CJSON) :
    ¬ Visit.Fails ⟨item1, JSONObj2, next2⟩ ∧ ¬ Visit.Reports ⟨item1, JSONObj2, next2⟩ := by
  cases extension with
  | scalar isMember name leaf agree =>
      obtain ⟨found, isCounterpart⟩ :=
        counterpart_of_mem wellNamed named isMember name next2
      have array : item1.type ≠ .array := fun array => leaf (.inl array)
      have works := agree.not_pairFails
      have silent := agree.not_pairReports
      simp [Visit.Fails, Visit.Reports, found, isCounterpart, array, works, silent]
  | object isMember name object1 object2 below =>
      obtain ⟨found, isCounterpart⟩ :=
        counterpart_of_mem wellNamed named isMember name next2
      have quiet := not_pair_of_container (.inr object1)
      simp [Visit.Fails, Visit.Reports, found, isCounterpart, object1, quiet]
  | array isMember name array1 array2 elements agree =>
      obtain ⟨found, isCounterpart⟩ :=
        counterpart_of_mem wellNamed named isMember name next2
      have quiet := not_pair_of_container (.inl array1)
      have agrees := agree_of_elementPairs elements agree
      constructor
      · rintro ⟨-, ⟨-, none | ⟨item2, isItem2, -, pair, isPair, fails⟩⟩ |
          ⟨item2, isItem2, fails⟩⟩
        · rw [isCounterpart] at none
          cases none
        · obtain rfl := Option.some.inj (isItem2.symm.trans isCounterpart)
          exact (agrees pair isPair).not_pairFails fails
        · exact (quiet item2).1 fails
      · rintro (⟨absent, -⟩ | ⟨-, item2, isItem2, ⟨-, mismatch | ⟨pair, isPair, reports⟩⟩ |
          reports⟩)
        · exact absent found
        · obtain rfl := Option.some.inj (isItem2.symm.trans isCounterpart)
          exact mismatch array2
        · obtain rfl := Option.some.inj (isItem2.symm.trans isCounterpart)
          exact (agrees pair isPair).not_pairReports reports
        · exact (quiet item2).2 reports

/-- A diff of an object and an extension of it answers true and adds no entry. -/
theorem diffSilent_of_extends
    {first second : CJSON}
    (wellNamed1 : first.WellNamed)
    (wellNamed2 : second.WellNamed)
    (extension : second.Extends first)
    (next1 next2 : List CJSON)
    (JSONObjDiff : CJSON) :
    DiffSilent (first :: next1) (second :: next2) JSONObjDiff := by
  rw [diffSilent_iff wellNamed1]
  refine @forall_visits_of_wellNamed (fun first second => second.Extends first) _ ?_
    _ _ wellNamed1 wellNamed2 extension next2
  rintro JSONObj1 JSONObj2 item1 wellNamed1 wellNamed2 ⟨members⟩ isItem next2
  obtain ⟨-, named, -, -⟩ := wellNamed1
  have member := members item1 isItem
  refine ⟨quiet_of_extendsMember wellNamed2 (named item1 isItem) member next2, ?_⟩
  intro object
  cases member with
  | scalar isMember name leaf agree => exact absurd (.inr object) leaf
  | object isMember name object1 object2 below =>
      exact ⟨_, isMember, name, object2, below⟩
  | array isMember name array1 array2 elements agree =>
      rw [array1] at object
      cases object

/-- An object without objects in it. -/
theorem wellNamed_of_flat
    {object : CJSON}
    (type : object.type = .object)
    (named : ∀ member ∈ object.child, member.HasName)
    (distinct : CaseDistinct object.child)
    (flat : ∀ member ∈ object.child, member.type ≠ .object) :
    object.WellNamed :=
  .object type named distinct fun member isMember isObject =>
    absurd isObject (flat member isMember)

/-- The object `{"a":null}`. -/
def objectOfNull : CJSON := memberObject createNull

/-- The object `{"a":null,"b":true}`. -/
def objectOfTwo : CJSON :=
  objectOfNull.addItemToObject (keyOf ['b']) (some createTrue)

theorem wellNamed_objectOfNull : objectOfNull.WellNamed :=
  wellNamed_of_flat rfl (by decide) (by decide) (by decide)

theorem wellNamed_objectOfTwo : objectOfTwo.WellNamed :=
  wellNamed_of_flat rfl (by decide) (by decide) (by decide)

theorem extends_objectOfTwo : objectOfTwo.Extends objectOfNull := by
  refine .object fun member isMember => ?_
  obtain rfl := List.mem_singleton.mp isMember
  refine .scalar List.mem_cons_self rfl (by decide) ⟨rfl, fun _ => rfl, ?_⟩
  intro string
  cases string

/-- A member more gives no entry. -/
theorem diffSilent_objectOfTwo :
    DiffSilent [objectOfNull] [objectOfTwo] createObject :=
  diffSilent_of_extends wellNamed_objectOfNull wellNamed_objectOfTwo extends_objectOfTwo
    [] [] createObject

end CJSON
end ProtobufSandbox
