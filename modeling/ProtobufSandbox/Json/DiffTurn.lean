import ProtobufSandbox.Json.DiffWalk

/-!
# One turn of a diff

What the comparison at an item does, told by the item and its counterpart: when it
fails, when it adds entries, and when each `valuestring` that it uses is the one
of a string.
-/

namespace ProtobufSandbox

/-! ## What a part of a run does -/

/-- Every `valuestring` that was used is the one of a string. -/
def DiffRun.OnlyStrings (run : DiffRun) : Prop :=
  ∀ item ∈ run.used, item.type = .string

/-- Entries are added if there are differences to report, and else the tree stays
as it is. -/
structure DiffRun.Changes
    (reports uses : Prop)
    (before after : DiffRun) : Prop where
  added : reports → before.diff.child.length < after.diff.child.length
  same : ¬ reports → after.diff = before.diff
  strings : after.OnlyStrings ↔ before.OnlyStrings ∧ uses

/-- A part of a run that fails under a condition, and else changes the run. -/
def Does
    (fails reports uses : Prop)
    (before : DiffRun) : Except DiffError DiffRun → Prop
  | .ok after => ¬ fails ∧ before.Changes reports uses after
  | .error (.failed _) => fails
  | .error (.outOfFuel _) => False

theorem DiffRun.Changes.refl
    {reports uses : Prop}
    (silent : ¬ reports)
    (strings : uses)
    (run : DiffRun) :
    run.Changes reports uses run where
  added reported := absurd reported silent
  same _ := rfl
  strings := (and_iff_left strings).symm

/-- No entry is lost. -/
theorem DiffRun.Changes.length_le
    {reports uses : Prop}
    {before after : DiffRun}
    (changes : before.Changes reports uses after) :
    before.diff.child.length ≤ after.diff.child.length := by
  by_cases reported : reports
  · exact Nat.le_of_lt (changes.added reported)
  · rw [changes.same reported]

theorem DiffRun.Changes.trans
    {reports uses laterReports laterUses : Prop}
    {first second third : DiffRun}
    (changes : first.Changes reports uses second)
    (later : second.Changes laterReports laterUses third) :
    first.Changes (reports ∨ laterReports) (uses ∧ laterUses) third where
  added reported := by
    rcases reported with early | late
    · exact Nat.lt_of_lt_of_le (changes.added early) later.length_le
    · exact Nat.lt_of_le_of_lt changes.length_le (later.added late)
  same silent := (later.same (silent ∘ .inr)).trans (changes.same (silent ∘ .inl))
  strings := by rw [later.strings, changes.strings, and_assoc]

/-- The conditions may be put in other words. -/
theorem Does.congr
    {fails reports uses otherFails otherReports otherUses : Prop}
    {before : DiffRun}
    {outcome : Except DiffError DiffRun}
    (does : Does fails reports uses before outcome)
    (sameFails : fails ↔ otherFails)
    (sameReports : reports ↔ otherReports)
    (sameUses : uses ↔ otherUses) :
    Does otherFails otherReports otherUses before outcome := by
  rw [← propext sameFails, ← propext sameReports, ← propext sameUses]
  exact does

/-- One part after another. -/
theorem Does.bind
    {fails reports uses laterFails laterReports laterUses : Prop}
    {before : DiffRun}
    {first : Except DiffError DiffRun}
    {second : DiffRun → Except DiffError DiffRun}
    (does : Does fails reports uses before first)
    (later : ∀ run, Does laterFails laterReports laterUses run (second run)) :
    Does (fails ∨ laterFails) (reports ∨ laterReports) (uses ∧ laterUses) before
      (first >>= second) := by
  cases first with
  | ok middle =>
      obtain ⟨works, changes⟩ := does
      have laterDoes := later middle
      change Does _ _ _ before (second middle)
      cases result : second middle with
      | ok after =>
          rw [result] at laterDoes
          exact ⟨fun fails => fails.elim works laterDoes.1, changes.trans laterDoes.2⟩
      | error error =>
          rw [result] at laterDoes
          cases error with
          | failed error => exact Or.inr laterDoes
          | outOfFuel run => exact laterDoes
  | error error =>
      cases error with
      | failed error => exact Or.inl does
      | outOfFuel run => exact does

/-- A part that adds an entry after it has used some items. -/
theorem does_addEntry
    {fails reports uses : Prop}
    (works : ¬ fails)
    (reported : reports)
    {items : List CJSON}
    (strings : (∀ item ∈ items, item.type = .string) ↔ uses)
    (run : DiffRun)
    (name : CString)
    (text : Bytes) :
    Does fails reports uses run (.ok ((run.use items).addEntry name text)) := by
  refine ⟨works, fun _ => ?_, fun silent => absurd reported silent, ?_⟩
  · simp [DiffRun.addEntry, DiffRun.use, CJSON.addItemToObject, CJSON.addItemToArray]
  · rw [← strings]
    exact List.forall_mem_append

/-- A part that does nothing. -/
theorem does_nothing
    {fails reports uses : Prop}
    (works : ¬ fails)
    (silent : ¬ reports)
    (strings : uses)
    (run : DiffRun) :
    Does fails reports uses run (.ok run) :=
  ⟨works, .refl silent strings run⟩

/-- A part that only adds an entry. -/
theorem does_addOnly
    {fails reports uses : Prop}
    (works : ¬ fails)
    (reported : reports)
    (strings : uses)
    (run : DiffRun)
    (name : CString)
    (text : Bytes) :
    Does fails reports uses run (.ok (run.addEntry name text)) := by
  have none : (∀ item ∈ ([] : List CJSON), item.type = .string) ↔ uses :=
    iff_of_true (List.forall_mem_nil _) strings
  have added := does_addEntry works reported none run name text
  rwa [DiffRun.use, List.append_nil] at added

/-- An entry that is added if a test holds. -/
theorem does_addIf
    {fails reports uses test : Prop}
    [Decidable test]
    (works : ¬ fails)
    (reported : reports ↔ test)
    (strings : uses)
    (run : DiffRun)
    (name : CString)
    (text : Bytes) :
    Does fails reports uses run
      (if test then .ok (run.addEntry name text) else .ok run) := by
  by_cases holds : test
  · rw [if_pos holds]
    exact does_addOnly works (reported.mpr holds) strings run name text
  · rw [if_neg holds]
    exact does_nothing works (reported.not.mpr holds) strings run

/-- An entry that is added if a test does not hold. -/
theorem does_addUnless
    {fails reports uses test : Prop}
    [Decidable test]
    (works : ¬ fails)
    (reported : reports ↔ ¬ test)
    (strings : uses)
    (run : DiffRun)
    (name : CString)
    (text : Bytes) :
    Does fails reports uses run
      (if test then .ok run else .ok (run.addEntry name text)) := by
  rw [← ite_not]
  exact does_addIf works reported strings run name text

/-- A loop of parts. -/
theorem does_foldlM
    {α : Type}
    {step : DiffRun → α → Except DiffError DiffRun}
    {fails reports uses : α → Prop}
    {elements : List α}
    (does : ∀ element ∈ elements, ∀ run,
      Does (fails element) (reports element) (uses element) run (step run element))
    (run : DiffRun) :
    Does (∃ element ∈ elements, fails element) (∃ element ∈ elements, reports element)
      (∀ element ∈ elements, uses element) run (elements.foldlM step run) := by
  induction elements generalizing run with
  | nil =>
      refine ⟨?_, .refl ?_ ?_ run⟩
      all_goals simp
  | cons element elements inductionHypothesis =>
      rw [List.foldlM_cons]
      have first := does element List.mem_cons_self run
      have rest := inductionHypothesis fun other isElement =>
        does other (List.mem_cons_of_mem _ isElement)
      refine (first.bind rest).congr ?_ ?_ ?_
      all_goals simp

namespace CJSON

/-! ## Two items -/

/-- The comparison of two items converts a null string. -/
def PairFails (item1 item2 : CJSON) : Prop :=
  item1.type = .string ∧ (item2.text = none ∨ item1.text = none)

/-- The comparison of two items adds an entry. -/
def PairReports (item1 item2 : CJSON) : Prop :=
  (item1.type = .false ∧ item2.type = .true) ∨
  (item1.type = .true ∧ item2.type ≠ .true) ∨
  (item1.type = .null ∧ item2.type ≠ .null) ∨
  (item1.type = .number ∧ ¬ AreSame item1.valuedouble item2.valuedouble) ∨
  (item1.type = .string ∧ item1.text ≠ item2.text)

/-- The comparison of two items uses the texts of strings only. -/
def PairUses (item1 item2 : CJSON) : Prop :=
  item1.type = .string → item2.type = .string

/-- The comparison of two items that are there. -/
theorem diffJSONObject_does
    (item1 item2 : CJSON)
    (next1 next2 : List CJSON)
    (itemstring : CString)
    (run : DiffRun) :
    Does (PairFails item1 item2) (PairReports item1 item2) (PairUses item1 item2) run
      (diffJSONObject (item1 :: next1) (item2 :: next2) itemstring run) := by
  cases type : item1.type with
  | false =>
      simp only [diffJSONObject, type]
      apply does_addIf
      all_goals simp [PairFails, PairReports, PairUses, type]
  | true | null | number =>
      simp only [diffJSONObject, type]
      apply does_addUnless
      all_goals simp [PairFails, PairReports, PairUses, type]
  | string =>
      simp only [diffJSONObject, type]
      cases second : item2.text with
      | none => exact ⟨type, .inl second⟩
      | some secondText =>
          cases first : item1.text with
          | none => exact ⟨type, .inr first⟩
          | some firstText =>
              have works : ¬ PairFails item1 item2 := by
                simp [PairFails, first, second]
              have reported : PairReports item1 item2 ↔ secondText ≠ firstText := by
                simp [PairReports, type, first, second, eq_comm]
              by_cases same : secondText = firstText
              · simp only [if_pos same]
                have silent := reported.not.mpr (not_not.mpr same)
                refine ⟨works, fun reports => absurd reports silent, fun _ => rfl, ?_⟩
                simp [DiffRun.OnlyStrings, DiffRun.use, PairUses, type, or_imp,
                  forall_and]
              · simp only [if_neg same]
                refine does_addEntry works (reported.mpr same) ?_ run itemstring _
                simp [PairUses, type]
  | array | object =>
      simp only [diffJSONObject, type]
      apply does_nothing
      all_goals simp [PairFails, PairReports, PairUses, type]

/-! ## Two arrays -/

/-- The pairs of elements of two arrays, as far as both go. -/
def elementPairs (item1 item2 : CJSON) : List (CJSON × CJSON) :=
  item1.child.zip item2.child

/-- The comparison at one index. -/
theorem diffElement_does
    {item1 : CJSON}
    {idx : Nat}
    (inRange : idx < item1.child.length)
    (item2 : CJSON)
    (name : CString)
    (run : DiffRun) :
    Does (∃ pair ∈ (elementPairs item1 item2)[idx]?, PairFails pair.1 pair.2)
      (∃ pair ∈ (elementPairs item1 item2)[idx]?, PairReports pair.1 pair.2)
      (∀ pair ∈ (elementPairs item1 item2)[idx]?, PairUses pair.1 pair.2) run
      (diffJSONObject (item1.getArrayItem idx) (item2.getArrayItem idx) name run) := by
  rw [getArrayItem, getArrayItem, List.drop_eq_getElem_cons inRange]
  by_cases both : idx < item2.child.length
  · have pair : (elementPairs item1 item2)[idx]? =
        some (item1.child[idx], item2.child[idx]) := by
      rw [elementPairs, List.getElem?_zip_eq_some]
      exact ⟨List.getElem?_eq_getElem inRange, List.getElem?_eq_getElem both⟩
    rw [List.drop_eq_getElem_cons both, pair]
    refine (diffJSONObject_does _ _ _ _ name run).congr ?_ ?_ ?_
    all_goals simp
  · have none : (elementPairs item1 item2)[idx]? = none := by
      rw [List.getElem?_eq_none_iff, elementPairs, List.length_zip]
      omega
    rw [List.drop_eq_nil_of_le (Nat.le_of_not_lt both), none]
    apply does_nothing
    all_goals simp

/-- What holds at some index holds for some pair. -/
theorem exists_elementPairs_iff
    (item1 item2 : CJSON)
    (holds : CJSON × CJSON → Prop) :
    (∃ idx ∈ List.range item1.child.length,
      ∃ pair ∈ (elementPairs item1 item2)[idx]?, holds pair) ↔
      ∃ pair ∈ elementPairs item1 item2, holds pair := by
  constructor
  · rintro ⟨idx, -, pair, there, isHeld⟩
    exact ⟨pair, List.mem_of_getElem? there, isHeld⟩
  · rintro ⟨pair, isPair, isHeld⟩
    obtain ⟨idx, there⟩ := List.mem_iff_getElem?.mp isPair
    obtain ⟨inRange, -⟩ := List.getElem?_eq_some_iff.mp there
    rw [elementPairs, List.length_zip] at inRange
    exact ⟨idx, List.mem_range.mpr (by omega), pair, there, isHeld⟩

/-- The comparison of two arrays. -/
theorem diffElements_does
    (item1 item2 : CJSON)
    (string : CString)
    (run : DiffRun) :
    Does (∃ pair ∈ elementPairs item1 item2, PairFails pair.1 pair.2)
      (∃ pair ∈ elementPairs item1 item2, PairReports pair.1 pair.2)
      (∀ pair ∈ elementPairs item1 item2, PairUses pair.1 pair.2) run
      (diffElements item1 item2 string run) := by
  unfold diffElements
  have loop := does_foldlM
    (fun idx inRange run => @diffElement_does item1 idx (List.mem_range.mp inRange) item2
      (CString.ofBuffer
        (string.val ++ ascii ['['] ++ Decimal.digits idx ++ ascii [']'])) run) run
  refine loop.congr (exists_elementPairs_iff _ _ _) (exists_elementPairs_iff _ _ _) ?_
  have dual := not_congr
    (exists_elementPairs_iff item1 item2 fun pair => ¬ PairUses pair.1 pair.2)
  simpa only [not_exists, not_and, not_not] using dual

end CJSON

/-! ## One item of a walk -/

namespace Visit

open CJSON

variable (visit : Visit)

/-- The second object has an item of the same name. -/
def Found : Prop :=
  attributeExists visit.JSONObj2 visit.next2 visit.item1.key = true

/-- What the item is compared with. -/
def counterpart : Option CJSON :=
  (visit.JSONObj2.getObjectItem visit.item1.key).head?

/-- The turn fails: it dereferences a null item or converts a null string. -/
def Fails : Prop :=
  visit.Found ∧
    ((visit.item1.type = .array ∧
      (visit.counterpart = none ∨ ∃ item2 ∈ visit.counterpart,
        item2.type = .array ∧
          ∃ pair ∈ elementPairs visit.item1 item2, PairFails pair.1 pair.2)) ∨
    ∃ item2 ∈ visit.counterpart, PairFails visit.item1 item2)

/-- The turn adds an entry. -/
def Reports : Prop :=
  (¬ visit.Found ∧ visit.item1.type ≠ .array) ∨
  (visit.Found ∧ ∃ item2 ∈ visit.counterpart,
    (visit.item1.type = .array ∧
      (item2.type ≠ .array ∨
        ∃ pair ∈ elementPairs visit.item1 item2, PairReports pair.1 pair.2)) ∨
    PairReports visit.item1 item2)

/-- The turn reads items that are there, and uses the texts of strings only. -/
def Uses : Prop :=
  (¬ visit.Found → visit.item1.type = .string ∨ visit.item1.type = .array) ∧
  (visit.Found → (visit.item1.type = .array → visit.counterpart.isSome) ∧
    ∀ item2 ∈ visit.counterpart, PairUses visit.item1 item2 ∧
      (visit.item1.type = .array → item2.type = .array →
        ∀ pair ∈ elementPairs visit.item1 item2, PairUses pair.1 pair.2))

end Visit

namespace CJSON

/-- What a turn does. -/
theorem turn_does (visit : Visit) (run : DiffRun) :
    Does visit.Fails visit.Reports visit.Uses run (turn visit run) := by
  unfold turn diffItem
  simp only [doesAttributeExist_cons, Except.mapError, Outcome.ok_bind]
  by_cases found : visit.Found
  · have present : attributeExists visit.JSONObj2 visit.next2 visit.item1.key = true :=
      found
    simp only [present, if_true]
    cases type : visit.item1.type with
    | array =>
        dsimp only
        cases looked : visit.JSONObj2.getObjectItem visit.item1.key with
        | nil =>
            have none : visit.counterpart = none := by
              rw [Visit.counterpart, looked, List.head?_nil]
            exact ⟨found, .inl ⟨type, .inl none⟩⟩
        | cons item2 siblings2 =>
            have some : visit.counterpart = some item2 := by
              rw [Visit.counterpart, looked, List.head?_cons]
            dsimp only
            by_cases array : item2.type = .array
            · rw [if_pos array]
              refine (diffElements_does _ _ _ _).congr ?_ ?_ ?_
              all_goals simp [Visit.Fails, Visit.Reports, Visit.Uses, PairFails,
                PairReports, PairUses, found, type, some, array]
            · rw [if_neg array]
              apply does_addOnly
              all_goals simp [Visit.Fails, Visit.Reports, Visit.Uses, PairFails,
                PairUses, found, type, some, array]
    | object =>
        apply does_nothing
        all_goals simp [Visit.Fails, Visit.Reports, Visit.Uses, PairFails,
          PairReports, PairUses, found, type]
    | false | true | null | number | string =>
        dsimp only
        cases looked : visit.JSONObj2.getObjectItem visit.item1.key with
        | nil =>
            have none : visit.counterpart = none := by
              rw [Visit.counterpart, looked, List.head?_nil]
            apply does_nothing
            all_goals simp [Visit.Fails, Visit.Reports, Visit.Uses, found, type, none]
        | cons item2 siblings2 =>
            have some : visit.counterpart = some item2 := by
              rw [Visit.counterpart, looked, List.head?_cons]
            refine (diffJSONObject_does _ _ _ _ _ run).congr ?_ ?_ ?_
            all_goals simp [Visit.Fails, Visit.Reports, Visit.Uses, found, type, some]
  · have absent : attributeExists visit.JSONObj2 visit.next2 visit.item1.key = false :=
      Bool.eq_false_iff.mpr found
    simp only [absent, Bool.false_eq_true, if_false]
    cases type : visit.item1.type with
    | array =>
        apply does_nothing
        all_goals simp [Visit.Fails, Visit.Reports, Visit.Uses, found, type]
    | object | false | true | null | number | string =>
        apply does_addEntry
        all_goals simp [Visit.Fails, Visit.Reports, Visit.Uses, found, type]

/-- What a run along a walk does, if every item of the walk has a name. -/
theorem runAlong_does
    {walk : List Visit}
    (named : ∀ visit ∈ walk, visit.item1.HasName)
    (run : DiffRun) :
    Does (∃ visit ∈ walk, visit.Fails) (∃ visit ∈ walk, visit.Reports)
      (∀ visit ∈ walk, visit.Uses) run (runAlong walk run) := by
  induction walk generalizing run with
  | nil =>
      apply does_nothing
      all_goals simp
  | cons visit walk inductionHypothesis =>
      obtain ⟨firstNamed, restNamed⟩ := List.forall_mem_cons.mp named
      rw [runAlong, if_pos firstNamed]
      refine ((turn_does visit run).bind (inductionHypothesis restNamed)).congr ?_ ?_ ?_
      all_goals simp

/-- A call with two items answers true once its loop is done. -/
theorem diffJSONObjects_cons
    (fuel : Nat)
    (JSONObj1 JSONObj2 : CJSON)
    (next1 next2 : List CJSON)
    (JSONObjDiff : CJSON) :
    diffJSONObjects fuel (JSONObj1 :: next1) (JSONObj2 :: next2) JSONObjDiff =
      (diffLoop fuel JSONObj1 JSONObj1.child JSONObj2 next2 ⟨JSONObjDiff, []⟩).map
        fun run => (true, run) := by
  rw [diffJSONObjects]
  cases diffLoop fuel JSONObj1 JSONObj1.child JSONObj2 next2 ⟨JSONObjDiff, []⟩ <;> rfl

end CJSON
end ProtobufSandbox
