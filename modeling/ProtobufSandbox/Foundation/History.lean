import Mathlib.Data.List.Induction

/-!
# Histories of events

A history is a list that grows at its end. A field that some events write holds
what the last of them wrote. A property of every event together with the events
before it is extended by one event at a time.
-/

namespace ProtobufSandbox
namespace History

/-- The value the last event that writes a field writes to it. -/
def lastWrite (write : α → Option β) (events : List α) : Option β :=
  events.reverse.findSome? write

@[simp] theorem lastWrite_nil (write : α → Option β) :
    lastWrite write [] = none := rfl

/-- A further event overrides the earlier ones if it writes the field. -/
@[simp] theorem lastWrite_concat
    (write : α → Option β)
    (events : List α)
    (event : α) :
    lastWrite write (events ++ [event]) =
      (write event).or (lastWrite write events) := by
  unfold lastWrite
  rw [List.reverse_append, List.reverse_singleton, List.singleton_append,
    List.findSome?_cons]
  cases write event <;> rfl

/-- A field that is written only together with another has no last value if
the other has none. -/
theorem lastWrite_eq_none_of
    {write : α → Option β}
    {other : α → Option γ}
    (together : ∀ event, other event = none → write event = none)
    {events : List α}
    (unwritten : lastWrite other events = none) :
    lastWrite write events = none := by
  unfold lastWrite at *
  rw [List.findSome?_eq_none_iff] at *
  exact fun event present => together event (unwritten event present)

/-- Two last values behind a common override. -/
theorem or_right_inj (override first second : Option α) :
    override.or first = override.or second ↔
      (override = none → first = second) := by
  cases override <;> simp

/-- The property holds of every event with the events before it. -/
def AtEach (property : List α → α → Prop) (events : List α) : Prop :=
  ∀ earlier event later, events = earlier ++ event :: later →
    property earlier event

@[simp] theorem atEach_nil (property : List α → α → Prop) :
    AtEach property [] := by
  intro earlier event later split
  simp at split

/-- A history has the property if its beginning has it and its last event
does. -/
@[simp] theorem atEach_concat
    {property : List α → α → Prop}
    {events : List α}
    {event : α} :
    AtEach property (events ++ [event]) ↔
      AtEach property events ∧ property events event := by
  constructor
  · intro each
    refine ⟨fun earlier other later split => ?_, each events event [] rfl⟩
    refine each earlier other (later ++ [event]) ?_
    rw [split, List.append_assoc, List.cons_append]
  · rintro ⟨each, last⟩ earlier other later split
    rcases List.eq_nil_or_concat later with rfl | ⟨between, final, rfl⟩
    · obtain ⟨rfl, same⟩ := List.append_inj' split rfl
      rwa [← List.singleton_inj.mp same]
    · rw [List.concat_eq_append, ← List.cons_append, ← List.append_assoc]
        at split
      exact each earlier other between (List.append_inj' split rfl).1

end History
end ProtobufSandbox
