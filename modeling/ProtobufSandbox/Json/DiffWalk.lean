import ProtobufSandbox.Json.CaseNames
import ProtobufSandbox.Json.Diff

/-!
# The walk of a diff

The items that `diffJSONObjects` comes to, in order, as a list: what a run does is
what it does at one item after another, until it comes to an item without a name
and stays there. What it does at one item is told by the item and the object it
is looked up in.
-/

namespace ProtobufSandbox

/-- An item that the loop comes to, and the object that it is looked up in with
what follows it. -/
structure Visit where
  item1 : CJSON
  JSONObj2 : CJSON
  next2 : List CJSON

namespace CJSON

/-- The item has a name that is not empty. -/
def HasName (item : CJSON) : Prop :=
  ∃ key, item.name = some key ∧ key ≠ []

theorem hasName_iff (item : CJSON) :
    item.HasName ↔ ∃ string ∈ item.string, string.val ≠ [] := by
  constructor
  · rintro ⟨own, named, notEmpty⟩
    obtain ⟨string, present, rfl⟩ := Option.map_eq_some_iff.mp named
    exact ⟨string, present, notEmpty⟩
  · rintro ⟨string, present, notEmpty⟩
    exact ⟨string.val, congrArg (Option.map Subtype.val) present, notEmpty⟩

instance HasName.decidable (item : CJSON) : Decidable item.HasName :=
  decidable_of_iff' _ item.hasName_iff

/-- What `doesAttributeExist` answers for an item that is not null. -/
def attributeExists (item : CJSON) (next : List CJSON) (key : CString) : Bool :=
  existsIn key.val false (if item.IsContainer then item.child else item :: next)

theorem doesAttributeExist_cons
    (item : CJSON)
    (next : List CJSON)
    (key : CString) :
    doesAttributeExist (item :: next) key.val false =
      .ok (attributeExists item next key) := rfl

/-! ## The items of a walk -/

/-- The name of an item; the empty one stands for none. -/
def key (item : CJSON) : CString :=
  item.string.getD (CString.ofBuffer [])

/-- The objects that the recursive call at an item is given. -/
def subObjects
    (JSONObj1 item1 JSONObj2 : CJSON)
    (next2 : List CJSON) : Option (CJSON × CJSON × List CJSON) :=
  if item1.type = .object ∧ attributeExists JSONObj2 next2 item1.key then
    match JSONObj1.getObjectItem item1.key, JSONObj2.getObjectItem item1.key with
    | [], _ => none
    | _ :: _, [] => none
    | sub1 :: _, sub2 :: siblings2 => some (sub1, sub2, siblings2)
  else none

theorem mem_child_of_getObjectItem
    {object item : CJSON}
    {string : CString}
    {next : List CJSON}
    (looked : object.getObjectItem string = item :: next) :
    item ∈ object.child :=
  (List.dropWhile_sublist _).subset (looked ▸ List.mem_cons_self)

/-- The objects of the recursive call are those that the lookups find. -/
theorem of_subObjects
    {JSONObj1 item1 JSONObj2 : CJSON}
    {next2 : List CJSON}
    {subs : CJSON × CJSON × List CJSON}
    (found : subObjects JSONObj1 item1 JSONObj2 next2 = some subs) :
    (item1.type = .object ∧ attributeExists JSONObj2 next2 item1.key = true) ∧
      (∃ siblings1, JSONObj1.getObjectItem item1.key = subs.1 :: siblings1) ∧
      JSONObj2.getObjectItem item1.key = subs.2.1 :: subs.2.2 := by
  unfold subObjects at found
  by_cases both : item1.type = .object ∧ attributeExists JSONObj2 next2 item1.key
  · rw [if_pos both] at found
    cases first : JSONObj1.getObjectItem item1.key with
    | nil => simp [first] at found
    | cons sub1 siblings1 =>
        cases second : JSONObj2.getObjectItem item1.key with
        | nil => simp [first, second] at found
        | cons sub2 siblings2 =>
            simp only [first, second, Option.some.injEq] at found
            subst found
            exact ⟨both, ⟨siblings1, rfl⟩, rfl⟩
  · rw [if_neg both] at found
    cases found

/-- The recursion goes down in the first tree. -/
theorem mem_child_of_subObjects
    {JSONObj1 item1 JSONObj2 : CJSON}
    {next2 : List CJSON}
    {subs : CJSON × CJSON × List CJSON}
    (found : subObjects JSONObj1 item1 JSONObj2 next2 = some subs) :
    subs.1 ∈ JSONObj1.child := by
  obtain ⟨-, ⟨siblings1, first⟩, -⟩ := of_subObjects found
  exact mem_child_of_getObjectItem first

/-- It goes down in the second tree as well. -/
theorem mem_child_of_subObjects_second
    {JSONObj1 item1 JSONObj2 : CJSON}
    {next2 : List CJSON}
    {subs : CJSON × CJSON × List CJSON}
    (found : subObjects JSONObj1 item1 JSONObj2 next2 = some subs) :
    subs.2.1 ∈ JSONObj2.child := by
  obtain ⟨-, -, second⟩ := of_subObjects found
  exact mem_child_of_getObjectItem second

/-- The items that `diffJSONObjects` comes to if it goes on at each of them. -/
def visits (JSONObj1 JSONObj2 : CJSON) (next2 : List CJSON) : List Visit :=
  JSONObj1.child.flatMap fun item1 =>
    ⟨item1, JSONObj2, next2⟩ ::
      match _found : subObjects JSONObj1 item1 JSONObj2 next2 with
      | none => []
      | some subs => visits subs.1 subs.2.1 subs.2.2
termination_by sizeOf JSONObj1
decreasing_by
  exact sizeOf_lt_of_mem_child (mem_child_of_subObjects _found)

/-- The items that a turn comes to: its own, and those of the recursive call. -/
def visitsAt
    (JSONObj1 JSONObj2 : CJSON)
    (next2 : List CJSON)
    (item1 : CJSON) : List Visit :=
  ⟨item1, JSONObj2, next2⟩ ::
    (subObjects JSONObj1 item1 JSONObj2 next2).elim [] fun subs =>
      visits subs.1 subs.2.1 subs.2.2

theorem visits_eq (JSONObj1 JSONObj2 : CJSON) (next2 : List CJSON) :
    visits JSONObj1 JSONObj2 next2 =
      JSONObj1.child.flatMap (visitsAt JSONObj1 JSONObj2 next2) := by
  rw [visits]
  congr 1
  funext item1
  unfold visitsAt
  congr 1
  split
  · next none => rw [none, Option.elim_none]
  · next subs some => rw [some, Option.elim_some]

/-- What passes from two objects to those of a recursive call holds along the
walk. -/
theorem forall_visits
    {holds : CJSON → CJSON → Prop}
    {good : Visit → Prop}
    (step : ∀ {JSONObj1 JSONObj2 next2 item1}, holds JSONObj1 JSONObj2 →
      item1 ∈ JSONObj1.child →
        good ⟨item1, JSONObj2, next2⟩ ∧
          ∀ subs ∈ subObjects JSONObj1 item1 JSONObj2 next2, holds subs.1 subs.2.1)
    {JSONObj1 JSONObj2 : CJSON}
    (start : holds JSONObj1 JSONObj2)
    (next2 : List CJSON) :
    ∀ visit ∈ visits JSONObj1 JSONObj2 next2, good visit := by
  induction JSONObj1 using CJSON.induction generalizing JSONObj2 next2 with
  | node JSONObj1 below =>
      intro visit isVisit
      rw [visits_eq] at isVisit
      obtain ⟨item1, isItem, isAt⟩ := List.mem_flatMap.mp isVisit
      obtain ⟨here, further⟩ := @step _ _ next2 _ start isItem
      cases List.mem_cons.mp isAt with
      | inl own => exact own ▸ here
      | inr nested =>
          cases found : subObjects JSONObj1 item1 JSONObj2 next2 with
          | none =>
              rw [found] at nested
              exact absurd nested List.not_mem_nil
          | some subs =>
              rw [found] at nested
              exact below subs.1 (mem_child_of_subObjects found)
                (further subs found) subs.2.2 visit nested

/-! ## The run along a walk -/

/-- What a turn does at an item, apart from the recursive call. -/
def turn (visit : Visit) (run : DiffRun) : Except DiffError DiffRun :=
  diffItem .ok visit.item1 visit.item1.key visit.JSONObj2 visit.next2 run

/-- A run along a walk; it stays at an item without a name. -/
def runAlong : List Visit → DiffRun → Except DiffError DiffRun
  | [], run => .ok run
  | visit :: visits, run =>
      if visit.item1.HasName then do runAlong visits (← turn visit run)
      else .error (.outOfFuel run)

theorem runAlong_append (first second : List Visit) (run : DiffRun) :
    runAlong (first ++ second) run = runAlong first run >>= runAlong second := by
  induction first generalizing run with
  | nil => rfl
  | cons visit first inductionHypothesis =>
      rw [List.cons_append, runAlong, runAlong]
      by_cases named : visit.item1.HasName
      · rw [if_pos named, if_pos named, bind_assoc]
        congr 1
        funext run
        exact inductionHypothesis run
      · rw [if_neg named, if_neg named]
        rfl

/-! ## Fuel -/

section Fuel

variable {JSONObj1 item1 JSONObj2 : CJSON} {items next2 : List CJSON} {run : DiffRun}

/-- A turn is what it does at its item, and then the recursive call. -/
theorem diffItem_eq
    (nested : DiffRun → Except DiffError DiffRun)
    (item1 JSONObj2 : CJSON)
    (next2 : List CJSON)
    (run : DiffRun) :
    diffItem nested item1 item1.key JSONObj2 next2 run =
      turn ⟨item1, JSONObj2, next2⟩ run >>=
        if item1.type = .object ∧ attributeExists JSONObj2 next2 item1.key then nested
        else .ok := by
  have unchanged (outcome : Except DiffError DiffRun) : outcome >>= .ok = outcome := by
    cases outcome <;> rfl
  unfold turn diffItem
  simp only [doesAttributeExist_cons, Except.mapError]
  cases found : attributeExists JSONObj2 next2 item1.key with
  | false =>
      rw [if_neg fun both => absurd both.2 Bool.false_ne_true]
      exact (unchanged _).symm
  | true =>
      by_cases object : item1.type = .object
      · rw [if_pos ⟨object, rfl⟩, object]
        rfl
      · rw [if_neg fun both => object both.1, unchanged]
        cases type : item1.type with
        | object => exact absurd type object
        | false | true | null | number | string | array => rfl

/-- The loop at an item with a name. -/
theorem diffLoop_cons
    (named : item1.HasName)
    (fuel : Nat) :
    diffLoop (fuel + 1) JSONObj1 (item1 :: items) JSONObj2 next2 run =
      (turn ⟨item1, JSONObj2, next2⟩ run >>= fun run =>
        (subObjects JSONObj1 item1 JSONObj2 next2).elim (.ok run) fun subs =>
          diffLoop fuel subs.1 subs.1.child subs.2.1 subs.2.2 run) >>=
        diffLoop fuel JSONObj1 items JSONObj2 next2 := by
  obtain ⟨string, present, notEmpty⟩ := (hasName_iff item1).mp named
  have isKey : string = item1.key := by rw [key, present, Option.getD_some]
  simp only [diffLoop, Option.mem_def.mp present, if_neg notEmpty]
  rw [isKey, diffItem_eq]
  congr 2
  funext run
  unfold subObjects
  split
  · next both =>
      unfold diffNested
      cases JSONObj1.getObjectItem item1.key with
      | nil => rfl
      | cons sub1 siblings1 =>
          cases JSONObj2.getObjectItem item1.key with
          | nil => rfl
          | cons sub2 siblings2 => rfl
  · rfl

/-- At an item without a name the loop stays until the fuel is spent. -/
theorem diffLoop_of_nameless
    (nameless : ¬ item1.HasName)
    (fuel : Nat) :
    diffLoop fuel JSONObj1 (item1 :: items) JSONObj2 next2 run =
      .error (.outOfFuel run) := by
  induction fuel with
  | zero => rfl
  | succ fuel inductionHypothesis =>
      cases present : item1.string with
      | none =>
          simp only [diffLoop, present]
          exact inductionHypothesis
      | some string =>
          have empty : string.val = [] := by
            by_contra notEmpty
            exact nameless ((hasName_iff item1).mpr ⟨string, present, notEmpty⟩)
          simp only [diffLoop, present, if_pos empty]
          exact inductionHypothesis

/-- A run is out of fuel, or it is as another one. -/
def Refines (first second : Except DiffError DiffRun) : Prop :=
  (∃ run, first = .error (.outOfFuel run)) ∨ first = second

theorem Refines.refl (outcome : Except DiffError DiffRun) : Refines outcome outcome :=
  .inr rfl

/-- A run that has returned is as the other one. -/
theorem Refines.eq_ok
    {last : DiffRun}
    {second : Except DiffError DiffRun}
    (refines : Refines (.ok last) second) :
    second = .ok last := by
  rcases refines with ⟨run, outOfFuel⟩ | same
  · cases outOfFuel
  · exact same.symm

theorem Refines.bind
    {first second : Except DiffError DiffRun}
    {rest other : DiffRun → Except DiffError DiffRun}
    (refines : Refines first second)
    (restRefines : ∀ run, Refines (rest run) (other run)) :
    Refines (first >>= rest) (second >>= other) := by
  rcases refines with ⟨run, rfl⟩ | rfl
  · exact .inl ⟨run, rfl⟩
  · cases first with
    | ok run => exact restRefines run
    | error error => exact .refl _

/-- A loop with any fuel does what a run along the walk does, as long as its fuel
lasts. -/
theorem diffLoop_refines
    (fuel : Nat)
    (JSONObj1 : CJSON)
    (items : List CJSON)
    (JSONObj2 : CJSON)
    (next2 : List CJSON)
    (run : DiffRun) :
    Refines (diffLoop fuel JSONObj1 items JSONObj2 next2 run)
      (runAlong (items.flatMap (visitsAt JSONObj1 JSONObj2 next2)) run) := by
  induction fuel generalizing JSONObj1 items JSONObj2 next2 run with
  | zero => exact .inl ⟨run, rfl⟩
  | succ fuel inductionHypothesis =>
      cases items with
      | nil => exact .refl _
      | cons item1 items =>
          by_cases named : item1.HasName
          · rw [diffLoop_cons named, List.flatMap_cons, runAlong_append, visitsAt,
              runAlong, if_pos named]
            refine .bind (.bind (.refl _) fun run => ?_) fun run =>
              inductionHypothesis JSONObj1 items JSONObj2 next2 run
            cases subObjects JSONObj1 item1 JSONObj2 next2 with
            | none => exact .refl _
            | some subs =>
                rw [Option.elim_some, Option.elim_some, visits_eq]
                exact inductionHypothesis subs.1 subs.1.child subs.2.1 subs.2.2 run
          · exact .inl ⟨run, diffLoop_of_nameless named (fuel + 1)⟩

/-- With enough fuel a loop does exactly that. -/
theorem exists_diffLoop_eq
    (JSONObj1 JSONObj2 : CJSON)
    (next2 : List CJSON) :
    ∃ enough, ∀ fuel, enough ≤ fuel → ∀ run,
      diffLoop fuel JSONObj1 JSONObj1.child JSONObj2 next2 run =
        runAlong (visits JSONObj1 JSONObj2 next2) run := by
  induction JSONObj1 using CJSON.induction generalizing JSONObj2 next2 with
  | node JSONObj1 below =>
      rw [visits_eq]
      generalize items : JSONObj1.child = chain
      clear items
      induction chain with
      | nil =>
          refine ⟨1, fun fuel enough run => ?_⟩
          obtain ⟨fuel, rfl⟩ := Nat.exists_eq_add_one.mpr enough
          rfl
      | cons item1 chain inductionHypothesis =>
          obtain ⟨enough, rest⟩ := inductionHypothesis
          obtain ⟨enoughBelow, nested⟩ : ∃ enough, ∀ fuel, enough ≤ fuel → ∀ run,
              ((subObjects JSONObj1 item1 JSONObj2 next2).elim (.ok run) fun subs =>
                diffLoop fuel subs.1 subs.1.child subs.2.1 subs.2.2 run) =
              runAlong ((subObjects JSONObj1 item1 JSONObj2 next2).elim [] fun subs =>
                visits subs.1 subs.2.1 subs.2.2) run := by
            cases found : subObjects JSONObj1 item1 JSONObj2 next2 with
            | none => exact ⟨0, fun fuel _ run => rfl⟩
            | some subs => exact below subs.1 (mem_child_of_subObjects found) _ _
          refine ⟨max enough enoughBelow + 1, fun fuel large run => ?_⟩
          obtain ⟨fuel, rfl⟩ := Nat.exists_eq_add_one.mpr (Nat.zero_lt_of_lt large)
          by_cases named : item1.HasName
          · rw [diffLoop_cons named, List.flatMap_cons, runAlong_append, visitsAt,
              runAlong, if_pos named]
            congr 1
            · congr 1
              funext run
              exact nested fuel (by omega) run
            · funext run
              exact rest fuel (by omega) run
          · rw [diffLoop_of_nameless named, List.flatMap_cons, runAlong_append,
              visitsAt, runAlong, if_neg named]
            rfl

end Fuel

end CJSON
end ProtobufSandbox
