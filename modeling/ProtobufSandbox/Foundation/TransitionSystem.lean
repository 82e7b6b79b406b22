import Mathlib.Data.List.Basic

/-!
# Deterministic labelled transition systems

A step function answers the next state, or nothing where the label is not
enabled. Runs are lists of labels. A property can be asked of every state along
a run, and a guard of every step of it; the rules below turn a fact about one
step into a fact about whole runs.
-/

namespace ProtobufSandbox
namespace TransitionSystem

/-- Perform a list of labels in order. The run fails as soon as a label is not
enabled. -/
def run (step : σ → α → Option σ) : σ → List α → Option σ
  | state, [] => some state
  | state, label :: labels =>
      (step state label).bind fun next => run step next labels

@[simp] theorem run_nil
    (step : σ → α → Option σ)
    (state : σ) :
    run step state [] = some state := rfl

theorem run_cons_eq_some
    {step : σ → α → Option σ}
    {state final : σ}
    {label : α}
    {labels : List α} :
    run step state (label :: labels) = some final ↔
      ∃ next, step state label = some next ∧
        run step next labels = some final := by
  simp [run, Option.bind_eq_some_iff]

/-- Runs compose. -/
theorem run_append
    (step : σ → α → Option σ)
    (state : σ)
    (first second : List α) :
    run step state (first ++ second) =
      (run step state first).bind fun middle => run step middle second := by
  induction first generalizing state with
  | nil => rfl
  | cons label labels inductionHypothesis =>
      cases stepped : step state label with
      | none => simp [run, stepped]
      | some next => simp [run, stepped, inductionHypothesis]

/-- The property holds in every state of the run, the first and the last
included. -/
def Along
    (step : σ → α → Option σ)
    (property : σ → Prop) : σ → List α → Prop
  | state, [] => property state
  | state, label :: labels =>
      property state ∧
        ∀ next, step state label = some next →
          Along step property next labels

/-- Every step of the run is taken under the guard. -/
def Guarded
    (step : σ → α → Option σ)
    (guard : σ → α → Prop) : σ → List α → Prop
  | _, [] => True
  | state, label :: labels =>
      guard state label ∧
        ∀ next, step state label = some next →
          Guarded step guard next labels

/-- A guard that can be decided can be decided for a whole run. -/
instance Guarded.decidable
    {step : σ → α → Option σ}
    {guard : σ → α → Prop}
    [∀ state label, Decidable (guard state label)] :
    ∀ state labels, Decidable (Guarded step guard state labels)
  | _, [] => isTrue trivial
  | state, label :: labels =>
      have (next : σ) : Decidable (Guarded step guard next labels) :=
        Guarded.decidable next labels
      inferInstanceAs (Decidable
        (guard state label ∧
          ∀ next ∈ step state label, Guarded step guard next labels))

/-- A guarded step in front of a guarded run. -/
theorem Guarded.cons
    {step : σ → α → Option σ}
    {guard : σ → α → Prop}
    {state next : σ}
    {label : α}
    {labels : List α}
    (stepped : step state label = some next)
    (allowed : guard state label)
    (rest : Guarded step guard next labels) :
    Guarded step guard state (label :: labels) := by
  refine ⟨allowed, fun other otherStepped => ?_⟩
  obtain rfl : next = other := by simpa [stepped] using otherStepped
  exact rest

/-- A guard on the labels alone. -/
theorem guarded_of_forall
    {step : σ → α → Option σ}
    {guard : σ → α → Prop}
    {labels : List α}
    (allowed : ∀ label ∈ labels, ∀ state, guard state label)
    (state : σ) :
    Guarded step guard state labels := by
  induction labels generalizing state with
  | nil => trivial
  | cons label labels inductionHypothesis =>
      refine ⟨allowed label List.mem_cons_self state, fun next _ => ?_⟩
      exact inductionHypothesis
        (fun other present => allowed other (List.mem_cons_of_mem _ present))
        next

/-- In a run that is performed a guard on the labels alone is asked of each of them. -/
theorem guarded_iff_forall
    {step : σ → α → Option σ}
    {guard : α → Prop}
    {state final : σ}
    {labels : List α}
    (performed : run step state labels = some final) :
    Guarded step (fun _ label => guard label) state labels ↔
      ∀ label ∈ labels, guard label := by
  induction labels generalizing state with
  | nil => simp [Guarded]
  | cons label labels inductionHypothesis =>
      obtain ⟨next, stepped, rest⟩ := run_cons_eq_some.mp performed
      rw [List.forall_mem_cons, ← inductionHypothesis rest, Guarded]
      simp [stepped]

/-- A property of every state along a run holds in its first state. -/
theorem Along.head
    {step : σ → α → Option σ}
    {property : σ → Prop}
    {state : σ}
    {labels : List α}
    (along : Along step property state labels) :
    property state := by
  cases labels with
  | nil => exact along
  | cons label labels => exact along.1

/-- What every enabled step preserves, every run preserves. -/
theorem run_preserves
    {step : σ → α → Option σ}
    {invariant : σ → Prop}
    (preserved : ∀ state label next,
      invariant state → step state label = some next → invariant next)
    {state final : σ}
    {labels : List α}
    (holds : invariant state)
    (performed : run step state labels = some final) :
    invariant final := by
  induction labels generalizing state with
  | nil =>
      cases performed
      exact holds
  | cons label labels inductionHypothesis =>
      obtain ⟨next, stepped, rest⟩ := run_cons_eq_some.mp performed
      exact inductionHypothesis (preserved state label next holds stepped) rest

/-- Where the invariant lets every step be taken and is kept by it, every run can be
made, and keeps it. -/
theorem exists_run_of_progress
    {step : σ → α → Option σ}
    {invariant : σ → Prop}
    {labels : List α}
    (progress : ∀ state, ∀ label ∈ labels,
      invariant state → ∃ next, step state label = some next ∧ invariant next)
    {state : σ}
    (holds : invariant state) :
    ∃ final, run step state labels = some final ∧ invariant final := by
  induction labels generalizing state with
  | nil => exact ⟨state, rfl, holds⟩
  | cons label labels inductionHypothesis =>
      obtain ⟨next, stepped, nextHolds⟩ := progress state label List.mem_cons_self holds
      obtain ⟨final, rest, finalHolds⟩ := inductionHypothesis
        (fun state other later => progress state other (List.mem_cons_of_mem label later))
        nextHolds
      exact ⟨final, run_cons_eq_some.mpr ⟨next, stepped, rest⟩, finalHolds⟩

/-- What the steps of a run emit, in order. -/
def emitted
    (step : σ → α → Option σ)
    (emit : σ → α → List β) : σ → List α → List β
  | _, [] => []
  | state, label :: labels =>
      emit state label ++
        ((step state label).map fun next => emitted step emit next labels).getD []

/-- What every step preserves of a state together with all that was emitted so far, every
run preserves. -/
theorem run_preserves_emitted
    {step : σ → α → Option σ}
    {emit : σ → α → List β}
    {invariant : List β → σ → Prop}
    (preserved : ∀ earlier state label next,
      invariant earlier state → step state label = some next →
        invariant (earlier ++ emit state label) next)
    {earlier : List β}
    {state final : σ}
    {labels : List α}
    (holds : invariant earlier state)
    (performed : run step state labels = some final) :
    invariant (earlier ++ emitted step emit state labels) final := by
  induction labels generalizing earlier state with
  | nil =>
      cases performed
      rw [emitted, List.append_nil]
      exact holds
  | cons label labels inductionHypothesis =>
      obtain ⟨next, stepped, rest⟩ := run_cons_eq_some.mp performed
      have later := inductionHypothesis
        (preserved earlier state label next holds stepped) rest
      rw [emitted, stepped, Option.map_some, Option.getD_some, ← List.append_assoc]
      exact later

/-- What every guarded step preserves, every guarded run preserves. -/
theorem run_preserves_of_guarded
    {step : σ → α → Option σ}
    {guard : σ → α → Prop}
    {invariant : σ → Prop}
    (preserved : ∀ state label next,
      invariant state → guard state label → step state label = some next →
        invariant next)
    {state final : σ}
    {labels : List α}
    (holds : invariant state)
    (guarded : Guarded step guard state labels)
    (performed : run step state labels = some final) :
    invariant final := by
  induction labels generalizing state with
  | nil =>
      cases performed
      exact holds
  | cons label labels inductionHypothesis =>
      obtain ⟨next, stepped, rest⟩ := run_cons_eq_some.mp performed
      exact inductionHypothesis
        (preserved state label next holds guarded.1 stepped)
        (guarded.2 next stepped) rest

/-- What every guarded step preserves holds in every state along a guarded
run. -/
theorem along_of_guarded
    {step : σ → α → Option σ}
    {guard : σ → α → Prop}
    {property : σ → Prop}
    (preserved : ∀ state label next,
      property state → guard state label → step state label = some next →
        property next)
    {state : σ}
    {labels : List α}
    (holds : property state)
    (guarded : Guarded step guard state labels) :
    Along step property state labels := by
  induction labels generalizing state with
  | nil => exact holds
  | cons label labels inductionHypothesis =>
      refine ⟨holds, fun next stepped => ?_⟩
      exact inductionHypothesis (preserved state label next holds guarded.1 stepped)
        (guarded.2 next stepped)

/-- If a step keeps the property exactly when it is taken under the guard,
then a run has the property in all its states exactly when all its steps are
guarded. The invariant collects what holds whether the guard does or not. -/
theorem along_iff_guarded
    {step : σ → α → Option σ}
    {guard : σ → α → Prop}
    {invariant property : σ → Prop}
    (preserved : ∀ state label next,
      invariant state → step state label = some next → invariant next)
    (exactly : ∀ state label next,
      invariant state → property state → step state label = some next →
        (property next ↔ guard state label))
    {state final : σ}
    {labels : List α}
    (invariantHolds : invariant state)
    (propertyHolds : property state)
    (performed : run step state labels = some final) :
    Along step property state labels ↔ Guarded step guard state labels := by
  induction labels generalizing state with
  | nil => simp [Along, Guarded, propertyHolds]
  | cons label labels inductionHypothesis =>
      obtain ⟨next, stepped, rest⟩ := run_cons_eq_some.mp performed
      have nextInvariant := preserved state label next invariantHolds stepped
      have nextExact := exactly state label next invariantHolds propertyHolds
        stepped
      have tail (nextProperty : property next) :=
        inductionHypothesis nextInvariant nextProperty rest
      constructor
      · rintro ⟨_, along⟩
        have nextProperty := (along next stepped).head
        refine ⟨nextExact.mp nextProperty, fun other otherStepped => ?_⟩
        obtain rfl : next = other := by simpa [stepped] using otherStepped
        exact (tail nextProperty).mp (along next stepped)
      · rintro ⟨guarded, guardedRest⟩
        refine ⟨propertyHolds, fun other otherStepped => ?_⟩
        obtain rfl : next = other := by simpa [stepped] using otherStepped
        exact (tail (nextExact.mpr guarded)).mpr (guardedRest next stepped)

/-- Guards that agree wherever the invariant holds guard the same runs. -/
theorem guarded_iff_guarded
    {step : σ → α → Option σ}
    {first second : σ → α → Prop}
    {invariant : σ → Prop}
    (preserved : ∀ state label next,
      invariant state → step state label = some next → invariant next)
    (agree : ∀ state label,
      invariant state → (first state label ↔ second state label))
    {state : σ}
    (holds : invariant state)
    (labels : List α) :
    Guarded step first state labels ↔ Guarded step second state labels := by
  induction labels generalizing state with
  | nil => exact Iff.rfl
  | cons label labels inductionHypothesis =>
      apply and_congr (agree state label holds)
      refine forall₂_congr fun next stepped => ?_
      exact inductionHypothesis (preserved state label next holds stepped)

/-- A map of states that turns every step from an invariant state into a run of
another system turns every run from an invariant state into a run of that
system. -/
theorem exists_run_of_simulation
    {step : σ → α → Option σ}
    {abstractStep : τ → β → Option τ}
    {invariant : σ → Prop}
    (abstraction : σ → τ)
    (preserved : ∀ state label next,
      invariant state → step state label = some next → invariant next)
    (simulated : ∀ state label next,
      invariant state → step state label = some next →
        ∃ abstractLabels,
          run abstractStep (abstraction state) abstractLabels =
            some (abstraction next))
    {state final : σ}
    {labels : List α}
    (holds : invariant state)
    (performed : run step state labels = some final) :
    ∃ abstractLabels,
      run abstractStep (abstraction state) abstractLabels =
        some (abstraction final) := by
  induction labels generalizing state with
  | nil =>
      cases performed
      exact ⟨[], rfl⟩
  | cons label labels inductionHypothesis =>
      obtain ⟨next, stepped, rest⟩ := run_cons_eq_some.mp performed
      obtain ⟨firstLabels, firstRun⟩ := simulated state label next holds stepped
      obtain ⟨secondLabels, secondRun⟩ :=
        inductionHypothesis (preserved state label next holds stepped) rest
      refine ⟨firstLabels ++ secondLabels, ?_⟩
      rw [run_append, firstRun]
      exact secondRun

end TransitionSystem
end ProtobufSandbox
