import ProtobufSandbox.Json.DiffEntries

/-!
# Changes that a diff overlooks

A diff without an entry does not mean that nothing has changed: it means so exactly
if there is no change of the kinds that `diffJSONObjects` does not look for.
-/

namespace ProtobufSandbox
namespace CJSON

/-! ## Changes -/

mutual

/-- An item says what another one says: the same scalar, an array with the same
elements, or an object with the same members and perhaps more. Numbers may differ as
far as `AreSame` lets them. -/
inductive Keeps : CJSON → CJSON → Prop
  | scalar
      {second first : CJSON}
      (leaf : ¬ first.IsContainer)
      (type : second.type = first.type)
      (number : first.type = .number → AreSame first.valuedouble second.valuedouble)
      (string : first.type = .string → first.text = second.text) :
      Keeps second first
  | array
      {second first : CJSON}
      (array1 : first.type = .array)
      (array2 : second.type = .array)
      (length : first.child.length = second.child.length)
      (elements : ∀ pair ∈ elementPairs first second, Keeps pair.2 pair.1) :
      Keeps second first
  | object
      {second first : CJSON}
      (object1 : first.type = .object)
      (object2 : second.type = .object)
      (members : ∀ member ∈ first.child, KeepsMember second member) :
      Keeps second first

/-- An object has a member under the same name that says the same. -/
inductive KeepsMember : CJSON → CJSON → Prop
  | member
      {second member other : CJSON}
      (isMember : other ∈ second.child)
      (name : other.string = member.string)
      (keeps : Keeps other member) :
      KeepsMember second member

end

/-- The comparison of two items overlooks that their types differ: it does not look
at the second type, or only whether it is `True`. -/
def PairOverlooks (item1 item2 : CJSON) : Prop :=
  (item1.type = .false ∧ item2.type ≠ .false ∧ item2.type ≠ .true) ∨
  (item1.type = .number ∧ item2.type ≠ .number ∧
    AreSame item1.valuedouble item2.valuedouble) ∨
  (item1.type = .string ∧ item2.type ≠ .string ∧ item1.text = item2.text)

/-- The comparison of two elements overlooks a change: it does not look at arrays and
objects at all. -/
def ElementOverlooks (element1 element2 : CJSON) : Prop :=
  (element1.IsContainer ∧ ¬ element2.Keeps element1) ∨ PairOverlooks element1 element2

end CJSON

open CJSON in
/-- A turn of the walk overlooks a change: an array that the second object lacks, an
object in whose place there is something else, two arrays of which the lengths or the
elements differ, or a type that is not looked at. -/
def Visit.Overlooks (visit : Visit) : Prop :=
  (visit.item1.type = .array ∧ ¬ visit.Found) ∨
  (visit.Found ∧ ∃ item2 ∈ visit.counterpart,
    (visit.item1.type = .object ∧ item2.type ≠ .object) ∨
    (visit.item1.type = .array ∧ item2.type = .array ∧
      (visit.item1.child.length ≠ item2.child.length ∨
        ∃ pair ∈ elementPairs visit.item1 item2, ElementOverlooks pair.1 pair.2)) ∨
    PairOverlooks visit.item1 item2)

namespace CJSON

section Items

variable {item1 item2 : CJSON}

/-- A scalar is kept exactly if its comparison reports and overlooks nothing. -/
theorem keeps_iff_of_leaf (leaf : ¬ item1.IsContainer) :
    item2.Keeps item1 ↔ ¬ PairReports item1 item2 ∧ ¬ PairOverlooks item1 item2 := by
  constructor
  · intro keeps
    cases keeps with
    | scalar _ type number string =>
        constructor
        · rintro (⟨type1, type2⟩ | ⟨type1, type2⟩ | ⟨type1, type2⟩ | ⟨type1, apart⟩ |
            ⟨type1, apart⟩)
          · rw [type, type1] at type2
            cases type2
          · exact type2 (type.trans type1)
          · exact type2 (type.trans type1)
          · exact apart (number type1)
          · exact apart (string type1)
        · rintro (⟨type1, type2, -⟩ | ⟨type1, type2, -⟩ | ⟨type1, type2, -⟩)
          all_goals exact type2 (type.trans type1)
    | array array1 => exact absurd (.inl array1) leaf
    | object object1 => exact absurd (.inr object1) leaf
  · rintro ⟨silent, seen⟩
    have number (type1 : item1.type = .number) :
        AreSame item1.valuedouble item2.valuedouble := by
      by_contra apart
      exact silent (.inr (.inr (.inr (.inl ⟨type1, apart⟩))))
    have string (type1 : item1.type = .string) : item1.text = item2.text := by
      by_contra apart
      exact silent (.inr (.inr (.inr (.inr ⟨type1, apart⟩))))
    refine .scalar leaf ?_ number string
    by_contra other
    cases type1 : item1.type with
    | false =>
        rw [type1] at other
        refine seen (.inl ⟨type1, other, fun type2 => ?_⟩)
        exact silent (.inl ⟨type1, type2⟩)
    | true =>
        rw [type1] at other
        exact silent (.inr (.inl ⟨type1, other⟩))
    | null =>
        rw [type1] at other
        exact silent (.inr (.inr (.inl ⟨type1, other⟩)))
    | number =>
        rw [type1] at other
        exact seen (.inr (.inl ⟨type1, other, number type1⟩))
    | string =>
        rw [type1] at other
        exact seen (.inr (.inr ⟨type1, other, string type1⟩))
    | array => exact leaf (.inl type1)
    | object => exact leaf (.inr type1)

theorem not_pairOverlooks_of_container
    (container : item1.IsContainer) :
    ¬ PairOverlooks item1 item2 := by
  rcases container with type | type
  · simp [PairOverlooks, type]
  · simp [PairOverlooks, type]

/-- What is kept is not overlooked. -/
theorem Keeps.not_pairOverlooks
    (keeps : item2.Keeps item1) :
    ¬ PairOverlooks item1 item2 := by
  by_cases container : item1.IsContainer
  · exact not_pairOverlooks_of_container container
  · exact ((keeps_iff_of_leaf container).mp keeps).2

/-- An element is kept if its comparison reports and overlooks nothing. -/
theorem keeps_of_element
    (silent : ¬ PairReports item1 item2)
    (seen : ¬ ElementOverlooks item1 item2) :
    item2.Keeps item1 := by
  by_cases container : item1.IsContainer
  · by_contra changed
    exact seen (.inl ⟨container, changed⟩)
  · exact (keeps_iff_of_leaf container).mpr ⟨silent, fun overlooks => seen (.inr overlooks)⟩

end Items

section Turns

variable {item1 JSONObj2 : CJSON} {next2 : List CJSON}

/-- Where a turn reports and overlooks nothing the second object has a member of the
name, which keeps what the item says unless the recursive call is to tell. -/
theorem exists_member_of_turn
    (wellNamed : JSONObj2.WellNamed)
    (named : item1.HasName)
    (silent : ¬ Visit.Reports ⟨item1, JSONObj2, next2⟩)
    (seen : ¬ Visit.Overlooks ⟨item1, JSONObj2, next2⟩) :
    ∃ member ∈ JSONObj2.child, member.string = item1.string ∧
      (item1.type = .object → member.type = .object) ∧
      (item1.type ≠ .object → member.Keeps item1) := by
  have found : Visit.Found ⟨item1, JSONObj2, next2⟩ := by
    by_contra absent
    by_cases array : item1.type = .array
    · exact seen (.inl ⟨array, absent⟩)
    · exact silent (.inl ⟨absent, array⟩)
  obtain ⟨type2, -, -, -⟩ := id wellNamed
  obtain ⟨member, isMember, name⟩ := (found_iff named type2 next2).mp found
  obtain ⟨-, isCounterpart⟩ := counterpart_of_mem wellNamed named isMember name next2
  refine ⟨member, isMember, name, fun object => ?_, fun notObject => ?_⟩
  · by_contra other
    exact seen (.inr ⟨found, member, isCounterpart, .inl ⟨object, other⟩⟩)
  · by_cases array : item1.type = .array
    · have array2 : member.type = .array := by
        by_contra other
        exact silent (.inr ⟨found, member, isCounterpart, .inl ⟨array, .inl other⟩⟩)
      have elementsSeen (overlooked : item1.child.length ≠ member.child.length ∨
          ∃ pair ∈ elementPairs item1 member, ElementOverlooks pair.1 pair.2) : False :=
        seen (.inr ⟨found, member, isCounterpart, .inr (.inl ⟨array, array2, overlooked⟩)⟩)
      refine .array array array2 ?_ fun pair isPair => ?_
      · by_contra lengths
        exact elementsSeen (.inl lengths)
      · refine keeps_of_element (fun reports => ?_) fun overlooks => ?_
        · exact silent (.inr ⟨found, member, isCounterpart,
            .inl ⟨array, .inr ⟨pair, isPair, reports⟩⟩⟩)
        · exact elementsSeen (.inr ⟨pair, isPair, overlooks⟩)
    · have leaf : ¬ item1.IsContainer := fun container => container.elim array notObject
      refine (keeps_iff_of_leaf leaf).mpr ⟨fun reports => ?_, fun overlooks => ?_⟩
      · exact silent (.inr ⟨found, member, isCounterpart, .inr reports⟩)
      · exact seen (.inr ⟨found, member, isCounterpart, .inr (.inr overlooks)⟩)

/-- A turn overlooks nothing at an item that is kept. -/
theorem not_overlooks_of_keepsMember
    (wellNamed : JSONObj2.WellNamed)
    (named : item1.HasName)
    (kept : KeepsMember JSONObj2 item1) :
    ¬ Visit.Overlooks ⟨item1, JSONObj2, next2⟩ := by
  obtain ⟨isMember, name, keeps⟩ := kept
  obtain ⟨found, isCounterpart⟩ := counterpart_of_mem wellNamed named isMember name next2
  rintro (⟨-, absent⟩ | ⟨-, item2, isItem2, overlooked⟩)
  · exact absent found
  · obtain rfl := Option.some.inj (isItem2.symm.trans isCounterpart)
    rcases overlooked with ⟨object, other⟩ | ⟨array, -, elements⟩ | overlooks
    · cases keeps with
      | scalar leaf => exact leaf (.inr object)
      | array array1 =>
          rw [array1] at object
          cases object
      | object object1 object2 => exact other object2
    · cases keeps with
      | scalar leaf => exact leaf (.inl array)
      | array array1 array2 length kept =>
          rcases elements with lengths | ⟨pair, isPair, ⟨-, changed⟩ | overlooks⟩
          · exact lengths length
          · exact changed (kept pair isPair)
          · exact (kept pair isPair).not_pairOverlooks overlooks
      | object object1 =>
          rw [object1] at array
          cases array
    · exact keeps.not_pairOverlooks overlooks

end Turns

/-- Nothing has changed if the walk reports and overlooks nothing. -/
theorem keeps_of_visits
    {first second : CJSON}
    (wellNamed1 : first.WellNamed)
    (wellNamed2 : second.WellNamed)
    (next2 : List CJSON)
    (quiet : ∀ visit ∈ visits first second next2, ¬ visit.Reports ∧ ¬ visit.Overlooks) :
    second.Keeps first := by
  induction first using CJSON.induction generalizing second next2 with
  | node first below =>
      obtain ⟨object1, named, -, nested1⟩ := id wellNamed1
      obtain ⟨object2, -, -, nested2⟩ := id wellNamed2
      rw [visits_eq] at quiet
      refine .object object1 object2 fun item1 isItem => ?_
      have quietAt (visit) (isAt : visit ∈ visitsAt first second next2 item1) :
          ¬ visit.Reports ∧ ¬ visit.Overlooks :=
        quiet visit (List.mem_flatMap.mpr ⟨item1, isItem, isAt⟩)
      obtain ⟨silent, seen⟩ := quietAt _ List.mem_cons_self
      obtain ⟨member, isMember, name, memberObject, kept⟩ :=
        exists_member_of_turn wellNamed2 (named item1 isItem) silent seen
      refine .member isMember name ?_
      by_cases object : item1.type = .object
      · obtain ⟨siblings2, subs⟩ :=
          subObjects_of_mem wellNamed1 wellNamed2 isItem object isMember name next2
        refine below item1 isItem (nested1 item1 isItem object)
          (nested2 member isMember (memberObject object)) siblings2
          fun visit isVisit => quietAt visit ?_
        rw [visitsAt, subs]
        exact List.mem_cons_of_mem _ isVisit
      · exact kept object

/-- The walk overlooks nothing where nothing has changed. -/
theorem not_overlooks_of_keeps
    {first second : CJSON}
    (wellNamed1 : first.WellNamed)
    (wellNamed2 : second.WellNamed)
    (keeps : second.Keeps first)
    (next2 : List CJSON) :
    ∀ visit ∈ visits first second next2, ¬ visit.Overlooks := by
  refine @forall_visits_of_wellNamed (fun first second => second.Keeps first) _ ?_
    _ _ wellNamed1 wellNamed2 keeps next2
  intro JSONObj1 JSONObj2 item1 wellNamed1 wellNamed2 keeps isItem next2
  obtain ⟨object, named, -, -⟩ := wellNamed1
  cases keeps with
  | scalar leaf => exact absurd (.inr object) leaf
  | array array1 =>
      rw [array1] at object
      cases object
  | object object1 object2 members =>
      have kept := members item1 isItem
      refine ⟨not_overlooks_of_keepsMember wellNamed2 (named item1 isItem) kept, ?_⟩
      intro itemObject
      obtain ⟨isMember, name, keeps⟩ := kept
      refine ⟨_, isMember, name, ?_, keeps⟩
      cases keeps with
      | scalar leaf => exact absurd (.inr itemObject) leaf
      | array array1 =>
          rw [array1] at itemObject
          cases itemObject
      | object object1 object2 members => exact object2

/-- A diff that answers true without an entry means that nothing has changed, exactly
if some difference is reported or fails, or no change is overlooked. -/
theorem keeps_of_diffSilent_iff
    {first second : CJSON}
    (wellNamed1 : first.WellNamed)
    (wellNamed2 : second.WellNamed)
    (next1 next2 : List CJSON)
    (JSONObjDiff : CJSON) :
    (DiffSilent (first :: next1) (second :: next2) JSONObjDiff → second.Keeps first) ↔
      (∃ visit ∈ visits first second next2, visit.Fails ∨ visit.Reports) ∨
        ∀ visit ∈ visits first second next2, ¬ visit.Overlooks := by
  rw [diffSilent_iff wellNamed1]
  constructor
  · intro complete
    by_cases reported : ∃ visit ∈ visits first second next2, visit.Fails ∨ visit.Reports
    · exact .inl reported
    · have quiet : ∀ visit ∈ visits first second next2, ¬ visit.Fails ∧ ¬ visit.Reports := by
        simpa only [not_exists, not_and, not_or] using reported
      exact .inr (not_overlooks_of_keeps wellNamed1 wellNamed2 (complete quiet) next2)
  · rintro (⟨visit, isVisit, reported⟩ | seen) quiet
    · exact absurd reported (not_or.mpr (quiet visit isVisit))
    · refine keeps_of_visits wellNamed1 wellNamed2 next2 fun visit isVisit => ?_
      exact ⟨(quiet visit isVisit).2, seen visit isVisit⟩

/-- The object `{"a":[]}`. -/
def objectOfArray : CJSON := memberObject { newItem with type := .array }

theorem wellNamed_objectOfArray : objectOfArray.WellNamed :=
  wellNamed_of_flat rfl (by decide) (by decide) (by decide)

theorem wellNamed_createObject : createObject.WellNamed :=
  wellNamed_of_flat rfl (by decide) (by decide) (by decide)

/-- The conditions on an array that the second object lacks. -/
theorem keeps_of_diffSilent_objectOfArray :
    (DiffSilent [objectOfArray] [createObject] createObject →
        createObject.Keeps objectOfArray) ↔
      (∃ visit ∈ visits objectOfArray createObject [], visit.Fails ∨ visit.Reports) ∨
        ∀ visit ∈ visits objectOfArray createObject [], ¬ visit.Overlooks :=
  keeps_of_diffSilent_iff wellNamed_objectOfArray wellNamed_createObject [] [] createObject

/-- An array that the second object lacks gives no entry. -/
theorem not_keeps_of_diffSilent_objectOfArray :
    objectOfArray.WellNamed ∧ createObject.WellNamed ∧
      DiffSilent [objectOfArray] [createObject] createObject ∧
      ¬ createObject.Keeps objectOfArray := by
  refine ⟨wellNamed_objectOfArray, wellNamed_createObject, ⟨2, ?_⟩, ?_⟩
  · intro fuel isEnough
    obtain ⟨fuel, rfl⟩ := Nat.exists_eq_add_of_le' isEnough
    exact ⟨⟨createObject, []⟩, rfl, rfl⟩
  · intro keeps
    cases keeps with
    | scalar leaf => exact leaf (.inr rfl)
    | array array1 => cases array1
    | object object1 object2 members =>
        obtain ⟨isMember, -, -⟩ := members _ List.mem_cons_self
        cases isMember

end CJSON
end ProtobufSandbox
