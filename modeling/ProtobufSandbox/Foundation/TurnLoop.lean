import Mathlib.Order.WellFounded
import ProtobufSandbox.Foundation.TransitionSystem

/-!
# Loops that take one input a turn

A turn takes an input and either returns a result or goes on from another state. A
call is the run of the turns that go on, with a turn that returns at its end; the
inputs behind that turn are left for others.
-/

namespace ProtobufSandbox
namespace TurnLoop

open TransitionSystem

variable {σ ι ρ : Type*}

/-- The turns that go on, as a transition system. -/
def goOn (turn : σ → ι → ρ ⊕ σ) (state : σ) (input : ι) : Option σ :=
  (turn state input).getRight?

/-- The state after some inputs, if the loop goes on with each of them. -/
def after (turn : σ → ι → ρ ⊕ σ) (state : σ) (inputs : List ι) : Option σ :=
  run (goOn turn) state inputs

/-- What the loop returns, and the inputs that it leaves. -/
def call (turn : σ → ι → ρ ⊕ σ) : σ → List ι → Option (ρ × List ι)
  | _, [] => none
  | state, input :: inputs =>
      (turn state input).elim (fun result => some (result, inputs))
        fun next => call turn next inputs

variable {turn : σ → ι → ρ ⊕ σ}

theorem goOn_eq_some_iff {state next : σ} {input : ι} :
    goOn turn state input = some next ↔ turn state input = .inr next := by
  rw [goOn, Sum.getRight?_eq_some_iff]

/-- One more input. -/
theorem after_concat_eq_some_iff {state last : σ} {inputs : List ι} {input : ι} :
    after turn state (inputs ++ [input]) = some last ↔
      ∃ middle, after turn state inputs = some middle ∧
        turn middle input = .inr last := by
  rw [after, run_append, Option.bind_eq_some_iff]
  simp only [run_cons_eq_some, run_nil, goOn_eq_some_iff, Option.some.injEq,
    exists_eq_right]
  rfl

/-- A call that returns has gone on up to the turn that returns. -/
theorem call_eq_some_iff {state : σ} {inputs rest : List ι} {result : ρ} :
    call turn state inputs = some (result, rest) ↔
      ∃ before input last, inputs = before ++ input :: rest ∧
        after turn state before = some last ∧ turn last input = .inl result := by
  induction inputs generalizing state with
  | nil => simp [call]
  | cons input inputs inductionHypothesis =>
      rw [call]
      cases turned : turn state input with
      | inl other =>
          constructor
          · intro returned
            cases returned
            exact ⟨[], input, state, rfl, rfl, turned⟩
          · rintro ⟨before, later, last, split, gone, returns⟩
            cases before with
            | nil =>
                cases split
                cases gone
                cases turned.symm.trans returns
                rfl
            | cons first before =>
                cases split
                obtain ⟨next, stepped, -⟩ := run_cons_eq_some.mp gone
                cases turned.symm.trans (goOn_eq_some_iff.mp stepped)
      | inr next =>
          rw [Sum.elim_inr, inductionHypothesis]
          have stepped := goOn_eq_some_iff.mpr turned
          constructor
          · rintro ⟨before, later, last, rfl, gone, returns⟩
            exact ⟨input :: before, later, last, rfl,
              run_cons_eq_some.mpr ⟨next, stepped, gone⟩, returns⟩
          · rintro ⟨before, later, last, split, gone, returns⟩
            cases before with
            | nil =>
                cases split
                cases gone
                cases turned.symm.trans returns
            | cons first before =>
                cases split
                obtain ⟨other, otherStepped, gone⟩ := run_cons_eq_some.mp gone
                cases stepped.symm.trans otherStepped
                exact ⟨before, later, last, rfl, gone, returns⟩

/-- A call that does not return goes on with all its inputs. -/
theorem call_eq_none_iff {state : σ} {inputs : List ι} :
    call turn state inputs = none ↔ ∃ last, after turn state inputs = some last := by
  induction inputs generalizing state with
  | nil => exact iff_of_true rfl ⟨state, rfl⟩
  | cons input inputs inductionHypothesis =>
      simp only [call, after, run_cons_eq_some, goOn_eq_some_iff]
      cases turned : turn state input with
      | inl result => simp
      | inr next =>
          rw [Sum.elim_inr, inductionHypothesis]
          simp only [Sum.inr.injEq, exists_eq_left']
          rfl

/-- The first inputs of an infinite sequence. -/
def firstInputs (inputs : ℕ → ι) (count : ℕ) : List ι :=
  (List.range count).map inputs

/-- The first of them stands in front. -/
theorem firstInputs_succ (inputs : ℕ → ι) (count : ℕ) :
    firstInputs inputs (count + 1) =
      inputs 0 :: firstInputs (fun index => inputs (index + 1)) count := by
  rw [firstInputs, List.range_succ_eq_map, List.map_cons, List.map_map]
  rfl

/-- A loop returns if every turn that goes on lowers a rank, but for turns on idle
inputs that keep it, and the inputs are not idle for ever. -/
theorem exists_call_of_rank
    {α : Type*}
    [Preorder α]
    [WellFoundedLT α]
    {rank : σ → α}
    {Idle : ι → Prop}
    (lowers : ∀ state input next, turn state input = .inr next →
      rank next < rank state ∨ Idle input ∧ rank next = rank state)
    {inputs : ℕ → ι}
    (often : ∀ count, ∃ later, count ≤ later ∧ ¬ Idle (inputs later))
    (state : σ) :
    ∃ count, (call turn state (firstInputs inputs count)).isSome := by
  generalize level : rank state = height
  induction height using WellFoundedLT.induction generalizing state inputs with
  | ind height lowerHypothesis =>
      have step {inputs : ℕ → ι} {state next : σ}
          (turned : turn state (inputs 0) = .inr next)
          (later : ∃ count, (call turn next
            (firstInputs (fun index => inputs (index + 1)) count)).isSome) :
          ∃ count, (call turn state (firstInputs inputs count)).isSome := by
        obtain ⟨count, returned⟩ := later
        refine ⟨count + 1, ?_⟩
        rw [firstInputs_succ, call, turned]
        exact returned
      have shifted {inputs : ℕ → ι}
          (often : ∀ count, ∃ later, count ≤ later ∧ ¬ Idle (inputs later))
          (count : ℕ) :
          ∃ later, count ≤ later ∧ ¬ Idle (inputs (later + 1)) := by
        obtain ⟨later, behind, busy⟩ := often (count + 1)
        refine ⟨later - 1, by omega, ?_⟩
        rwa [Nat.sub_add_cancel (by omega)]
      -- The idle inputs in front are taken one after the other.
      obtain ⟨first, -, busy⟩ := often 0
      induction first generalizing inputs state with
      | zero =>
          cases turned : turn state (inputs 0) with
          | inl result => exact ⟨1, by simp [firstInputs, call, turned]⟩
          | inr next =>
              apply step turned
              rcases lowers state (inputs 0) next turned with lower | ⟨idle, -⟩
              · exact lowerHypothesis _ (level ▸ lower) (shifted often) next rfl
              · exact absurd idle busy
      | succ first inductionHypothesis =>
          cases turned : turn state (inputs 0) with
          | inl result => exact ⟨1, by simp [firstInputs, call, turned]⟩
          | inr next =>
              apply step turned
              rcases lowers state (inputs 0) next turned with lower | ⟨-, same⟩
              · exact lowerHypothesis _ (level ▸ lower) (shifted often) next rfl
              · exact inductionHypothesis (shifted often) next (same.trans level) busy

end TurnLoop
end ProtobufSandbox
