import Mathlib.Data.List.Basic

/-!
# Sequences of separator-terminated segments

A sequence that uses one symbol as a terminator splits into the segments that
symbol ends and a residue after its last occurrence. The laws say how both grow
when the sequence grows, which is what a reader that sees the sequence in
pieces needs.
-/

namespace ProtobufSandbox
namespace Separator

/-- The segments ended by a separator, without their separators. -/
def terminated [BEq α] (separator : α) (sequence : List α) : List (List α) :=
  (sequence.splitOn separator).dropLast

/-- What follows the last separator. -/
def residue [BEq α] (separator : α) (sequence : List α) : List α :=
  (sequence.splitOn separator).getLast (List.splitOn_ne_nil _ _)

@[simp] theorem terminated_nil [BEq α] (separator : α) :
    terminated separator ([] : List α) = [] := rfl

@[simp] theorem residue_nil [BEq α] (separator : α) :
    residue separator ([] : List α) = [] := rfl

/-- The split of a sequence is its terminated segments and its residue. -/
theorem splitOn_eq
    [BEq α]
    (separator : α)
    (sequence : List α) :
    sequence.splitOn separator =
      terminated separator sequence ++ [residue separator sequence] :=
  (List.dropLast_concat_getLast _).symm

/-- A split is determined by its last segment and those before it. -/
theorem eq_of_splitOn
    [BEq α]
    {separator : α}
    {sequence last : List α}
    {segments : List (List α)}
    (split : sequence.splitOn separator = segments ++ [last]) :
    terminated separator sequence = segments ∧
      residue separator sequence = last := by
  have both := (splitOn_eq separator sequence).symm.trans split
  exact ⟨List.append_inj_left' both rfl,
    List.singleton_inj.mp (List.append_inj_right' both rfl)⟩

/-- Without a separator nothing is terminated. -/
theorem of_not_mem
    [BEq α] [LawfulBEq α]
    {separator : α}
    {sequence : List α}
    (absent : separator ∉ sequence) :
    terminated separator sequence = [] ∧
      residue separator sequence = sequence :=
  eq_of_splitOn (List.splitOn_eq_singleton absent)

/-- The first separator ends the first segment. -/
theorem of_append_cons
    [BEq α] [LawfulBEq α]
    {separator : α}
    {segment : List α}
    (absent : separator ∉ segment)
    (rest : List α) :
    terminated separator (segment ++ separator :: rest) =
        segment :: terminated separator rest ∧
      residue separator (segment ++ separator :: rest) =
        residue separator rest := by
  apply eq_of_splitOn
  rw [List.splitOn_append_cons_self_of_not_mem absent, splitOn_eq]
  rfl

/-- Induction on the segments of a sequence: it either holds no separator, or
is a segment, its separator and a shorter sequence. -/
theorem induction
    [DecidableEq α]
    (separator : α)
    {motive : List α → Prop}
    (open_segment : ∀ sequence, separator ∉ sequence → motive sequence)
    (ended_segment : ∀ segment rest, separator ∉ segment → motive rest →
      motive (segment ++ separator :: rest))
    (sequence : List α) :
    motive sequence := by
  induction length : sequence.length using Nat.strongRecOn
    generalizing sequence with
  | ind length inductionHypothesis =>
      by_cases present : separator ∈ sequence
      · obtain ⟨segment, rest, rfl, absent⟩ :=
          List.eq_append_cons_of_mem present
        refine ended_segment segment rest absent
          (inductionHypothesis rest.length ?_ rest rfl)
        simp [← length]
        omega
      · exact open_segment sequence present

/-- A residue holds no separator. -/
theorem not_mem_residue
    [DecidableEq α]
    (separator : α)
    (sequence : List α) :
    separator ∉ residue separator sequence := by
  induction sequence using induction separator with
  | open_segment sequence absent => rwa [(of_not_mem absent).2]
  | ended_segment segment rest absent inductionHypothesis =>
      rwa [(of_append_cons absent rest).2]

/-- A longer sequence splits like the residue of its beginning followed by its
end. -/
theorem append
    [DecidableEq α]
    (separator : α)
    (first second : List α) :
    terminated separator (first ++ second) =
        terminated separator first ++
          terminated separator (residue separator first ++ second) ∧
      residue separator (first ++ second) =
        residue separator (residue separator first ++ second) := by
  induction first using induction separator with
  | open_segment first absent => simp [of_not_mem absent]
  | ended_segment segment rest absent inductionHypothesis =>
      have whole := of_append_cons absent rest
      have extended := of_append_cons absent (rest ++ second)
      rw [List.append_assoc, List.cons_append, whole.1, whole.2, extended.1,
        extended.2, inductionHypothesis.1, inductionHypothesis.2]
      simp

/-- The residue of a beginning is told apart by what the whole terminates, as
soon as the end holds a separator. -/
theorem terminated_append_inj
    [DecidableEq α]
    {separator : α}
    {left right : List α}
    (leftAbsent : separator ∉ left)
    (rightAbsent : separator ∉ right)
    (sequence : List α) :
    terminated separator (left ++ sequence) =
        terminated separator (right ++ sequence) ↔
      left = right ∨ separator ∉ sequence := by
  by_cases present : separator ∈ sequence
  · obtain ⟨segment, rest, rfl, absent⟩ := List.eq_append_cons_of_mem present
    have leftFirst : separator ∉ left ++ segment := by simp [leftAbsent, absent]
    have rightFirst : separator ∉ right ++ segment := by
      simp [rightAbsent, absent]
    rw [← List.append_assoc, ← List.append_assoc,
      (of_append_cons leftFirst rest).1, (of_append_cons rightFirst rest).1]
    simp
  · have leftWhole : separator ∉ left ++ sequence := by
      simp [leftAbsent, present]
    have rightWhole : separator ∉ right ++ sequence := by
      simp [rightAbsent, present]
    simp [of_not_mem leftWhole, of_not_mem rightWhole, present]

/-- Segments, each followed by a separator, and the residue make up the
sequence again. -/
theorem flatten_terminated_append_residue
    [DecidableEq α]
    (separator : α)
    (sequence : List α) :
    ((terminated separator sequence).map (· ++ [separator])).flatten ++
      residue separator sequence = sequence := by
  induction sequence using induction separator with
  | open_segment sequence absent => simp [of_not_mem absent]
  | ended_segment segment rest absent inductionHypothesis =>
      simp [of_append_cons absent rest, inductionHypothesis]

/-! ## Beginnings of a sequence whose segments end in one of several symbols -/

section Beginnings

variable {isEnd : α → Bool} {text segment more later : List α} {ending : α}

/-- A beginning without ends lies in the first segment. -/
theorem isPrefix_segment
    (ordinary : ∀ symbol ∈ text, isEnd symbol = false)
    (ends : isEnd ending = true)
    (begins : text ++ more <+: segment ++ ending :: later) :
    text <+: segment := by
  have first : text <+: segment ++ ending :: later :=
    (List.prefix_append text more).trans begins
  rcases List.prefix_or_prefix_of_prefix first (List.prefix_append segment _) with
    inside | ⟨rest, rfl⟩
  · exact inside
  · rw [List.prefix_append_right_inj] at first
    cases rest with
    | nil => simp
    | cons symbol rest =>
        obtain ⟨rfl, -⟩ := List.cons_prefix_cons.mp first
        cases ends.symm.trans (ordinary symbol (by simp))

/-- A beginning that ends at the first end is the first segment. -/
theorem eq_segment
    {symbol : α}
    (ordinary : ∀ symbol ∈ text, isEnd symbol = false)
    (segmentOrdinary : ∀ symbol ∈ segment, isEnd symbol = false)
    (symbolEnds : isEnd symbol = true)
    (ends : isEnd ending = true)
    (begins : text ++ symbol :: more <+: segment ++ ending :: later) :
    text = segment ∧ symbol = ending ∧ more <+: later := by
  obtain ⟨rest, rfl⟩ := isPrefix_segment ordinary ends begins
  rw [List.append_assoc, List.prefix_append_right_inj] at begins
  cases rest with
  | nil =>
      rw [List.append_nil]
      exact ⟨rfl, List.cons_prefix_cons.mp begins⟩
  | cons other rest =>
      obtain ⟨rfl, -⟩ := List.cons_prefix_cons.mp begins
      cases symbolEnds.symm.trans (segmentOrdinary symbol (by simp))

end Beginnings

end Separator
end ProtobufSandbox
