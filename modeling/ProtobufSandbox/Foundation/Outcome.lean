/-!
# Outcomes of computations that can fail

A computation meets a condition on its value and a condition on its error. The
rules follow the way computations are composed, so that what a composed one
meets is found from what its parts meet.
-/

namespace ProtobufSandbox
namespace Outcome

/-- A value satisfies the postcondition, an error is allowed. -/
def Meets
    (allowed : ε → Prop)
    (post : α → Prop) : Except ε α → Prop
  | .ok value => post value
  | .error error => allowed error

variable {ε : Type u} {α β : Type v}
variable {allowed : ε → Prop}

/-- A weaker postcondition is met as well. -/
theorem Meets.mono
    {post weaker : α → Prop}
    {outcome : Except ε α}
    (meets : Meets allowed post outcome)
    (implies : ∀ value, post value → weaker value) :
    Meets allowed weaker outcome := by
  cases outcome with
  | ok value => exact implies value meets
  | error error => exact meets

/-- Two conditions that are met are met together. -/
theorem Meets.and
    {post other : α → Prop}
    {outcome : Except ε α}
    (first : Meets allowed post outcome)
    (second : Meets allowed other outcome) :
    Meets allowed (fun value => post value ∧ other value) outcome := by
  cases outcome with
  | ok value => exact ⟨first, second⟩
  | error error => exact first

/-- The condition on a value that is returned. -/
theorem Meets.of_eq_ok
    {post : α → Prop}
    {outcome : Except ε α}
    {value : α}
    (meets : Meets allowed post outcome)
    (returned : outcome = .ok value) :
    post value := by
  subst returned
  exact meets

/-- The second part starts from a value that the first part returned. -/
theorem Meets.bind
    {middle : α → Prop}
    {post : β → Prop}
    {first : Except ε α}
    {second : α → Except ε β}
    (firstMeets : Meets allowed middle first)
    (secondMeets : ∀ value, middle value → Meets allowed post (second value)) :
    Meets allowed post (first >>= second) := by
  cases first with
  | ok value => exact secondMeets value firstMeets
  | error error => exact firstMeets

theorem Meets.map
    {middle : α → Prop}
    {post : β → Prop}
    {outcome : Except ε α}
    {function : α → β}
    (meets : Meets allowed middle outcome)
    (implies : ∀ value, middle value → post (function value)) :
    Meets allowed post (outcome.map function) := by
  cases outcome with
  | ok value => exact implies value meets
  | error error => exact meets

/-- A computation chosen by a test. -/
theorem Meets.ite
    {test : Prop}
    [Decidable test]
    {post : α → Prop}
    {first second : Except ε α}
    (firstMeets : test → Meets allowed post first)
    (secondMeets : ¬ test → Meets allowed post second) :
    Meets allowed post (if test then first else second) := by
  split
  · next holds => exact firstMeets holds
  · next fails => exact secondMeets fails

@[simp] theorem ok_bind (value : α) (next : α → Except ε β) :
    (Except.ok value >>= next) = next value := rfl

/-- A composed computation returns where both parts do. -/
theorem bind_eq_ok_iff
    {first : Except ε α}
    {second : α → Except ε β}
    {value : β} :
    first >>= second = .ok value ↔
      ∃ middle, first = .ok middle ∧ second middle = .ok value := by
  constructor
  · intro returned
    cases first with
    | ok middle => exact ⟨middle, rfl, returned⟩
    | error error => cases returned
  · rintro ⟨middle, rfl, returned⟩
    exact returned

theorem map_eq_ok_iff
    {outcome : Except ε α}
    {function : α → β}
    {value : β} :
    outcome.map function = .ok value ↔
      ∃ before, outcome = .ok before ∧ function before = value := by
  constructor
  · intro returned
    cases outcome with
    | ok before => exact ⟨before, rfl, Except.ok.inj returned⟩
    | error error => cases returned
  · rintro ⟨before, rfl, rfl⟩
    rfl

/-- A map of the value returns where the computation does. -/
theorem exists_map_eq_ok_iff
    {outcome : Except ε α}
    {function : α → β} :
    (∃ value, outcome.map function = .ok value) ↔ ∃ value, outcome = .ok value := by
  simp only [map_eq_ok_iff]
  constructor
  · rintro ⟨value, before, returned, -⟩
    exact ⟨before, returned⟩
  · rintro ⟨before, returned⟩
    exact ⟨function before, before, returned, rfl⟩

/-- Up to a view of its value, a computation has the outcome of another one,
unless it fails with a given error. -/
def AgreesUnless
    (error : ε)
    (view : α → γ)
    (outcome : Except ε α)
    (other : Except ε γ) : Prop :=
  outcome = .error error ∨ outcome.map view = other

section Agreement

variable {γ δ : Type v} {error : ε} {view : α → γ} {view' : β → δ}

theorem AgreesUnless.refl (outcome : Except ε α) :
    AgreesUnless error id outcome outcome :=
  .inr (congrFun Except.map_id outcome)

/-- The parts agree, from values that are seen as the same. -/
theorem AgreesUnless.bind
    {outcome : Except ε α}
    {other : Except ε γ}
    {next : α → Except ε β}
    {next' : γ → Except ε δ}
    (agrees : AgreesUnless error view outcome other)
    (nextAgrees : ∀ value,
      AgreesUnless error view' (next value) (next' (view value))) :
    AgreesUnless error view' (outcome >>= next) (other >>= next') := by
  rcases agrees with rfl | rfl
  · exact .inl rfl
  · cases outcome with
    | ok value => exact nextAgrees value
    | error failure => exact .inr rfl

/-- What is computed from the value at the end does not change its view. -/
theorem AgreesUnless.bind_ok
    {view : α → γ}
    {view' : β → γ}
    {outcome : Except ε α}
    {other : Except ε γ}
    {result : α → β}
    (agrees : AgreesUnless error view outcome other)
    (same : ∀ value, view' (result value) = view value) :
    AgreesUnless error view' (outcome >>= fun value => .ok (result value))
      other := by
  rcases agrees with rfl | rfl
  · exact .inl rfl
  · cases outcome with
    | ok value => exact .inr (congrArg Except.ok (same value))
    | error failure => exact .inr rfl

/-- Both begin with the same part. -/
theorem AgreesUnless.bind_self
    {outcome : Except ε α}
    {next : α → Except ε β}
    {next' : α → Except ε δ}
    (nextAgrees : ∀ value, AgreesUnless error view' (next value) (next' value)) :
    AgreesUnless error view' (outcome >>= next) (outcome >>= next') := by
  cases outcome with
  | ok value => exact nextAgrees value
  | error failure => exact .inr rfl

theorem AgreesUnless.ite
    {test : Prop}
    [Decidable test]
    {first second : Except ε α}
    {first' second' : Except ε γ}
    (firstAgrees : AgreesUnless error view first first')
    (secondAgrees : AgreesUnless error view second second') :
    AgreesUnless error view (if test then first else second)
      (if test then first' else second') := by
  split
  · exact firstAgrees
  · exact secondAgrees

/-- The second computation fails where the first one does. -/
theorem AgreesUnless.of_eq_error
    {outcome : Except ε α}
    {other : Except ε γ}
    {failure : ε}
    (agrees : AgreesUnless error view outcome other)
    (failed : outcome = .error failure) :
    failure = error ∨ other = .error failure := by
  subst failed
  rcases agrees with same | rfl
  · exact .inl (Except.error.inj same)
  · exact .inr rfl

/-- The first computation fails where the second one does, if not before. -/
theorem AgreesUnless.eq_error
    {outcome : Except ε α}
    {other : Except ε γ}
    {failure : ε}
    (agrees : AgreesUnless error view outcome other)
    (failed : other = .error failure) :
    outcome = .error error ∨ outcome = .error failure := by
  rcases agrees with same | rfl
  · exact .inl same
  · cases outcome with
    | ok value => cases failed
    | error earlier => exact .inr (congrArg Except.error (Except.error.inj failed))

end Agreement

end Outcome
end ProtobufSandbox
