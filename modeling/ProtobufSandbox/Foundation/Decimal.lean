import Mathlib.Algebra.Order.Ring.Nat
import Mathlib.Data.Nat.Cast.Basic
import Mathlib.Tactic.IntervalCases
import Mathlib.Tactic.Ring

/-!
# Decimal numerals

The ASCII numeral of a natural number, and the accumulation by which a reader
turns digits back into a number. The accumulator may be in any semiring, so
that the same facts serve readers that count in another type.
-/

namespace ProtobufSandbox
namespace Decimal

/-- The decimal numeral of a number, the highest digit first. -/
def digits (value : Nat) : List UInt8 :=
  (Nat.toDigits 10 value).map fun character => UInt8.ofNat character.toNat

/-- `'0' <= byte && byte <= '9'`. -/
def isDigit (byte : UInt8) : Bool :=
  decide (48 ≤ byte ∧ byte ≤ 57)

/-- The number a digit stands for. -/
def digitValue (byte : UInt8) : Nat :=
  byte.toNat - 48

/-- Take one more digit into a number. -/
def extend {R : Type*} [Semiring R] (value : R) (byte : UInt8) : R :=
  value * 10 + (digitValue byte : R)

/-- The byte of a digit. -/
def digit (value : Nat) : UInt8 :=
  UInt8.ofNat (48 + value)

theorem ofNat_digitChar
    {value : Nat}
    (small : value < 10) :
    UInt8.ofNat value.digitChar.toNat = digit value := by
  interval_cases value <;> rfl

theorem isDigit_digit
    {value : Nat}
    (small : value < 10) :
    isDigit (digit value) = true := by
  interval_cases value <;> rfl

theorem digitValue_digit
    {value : Nat}
    (small : value < 10) :
    digitValue (digit value) = value := by
  interval_cases value <;> rfl

/-- A digit stands for at most nine. -/
theorem digitValue_le
    {byte : UInt8}
    (digit : isDigit byte = true) :
    digitValue byte ≤ 9 := by
  have large : byte.toNat ≤ 57 := UInt8.le_iff_toNat_le.mp (of_decide_eq_true digit).2
  unfold digitValue
  omega

theorem digits_of_lt
    {value : Nat}
    (small : value < 10) :
    digits value = [digit value] := by
  rw [digits, Nat.toDigits_of_lt_base small, List.map_singleton,
    ofNat_digitChar small]

theorem digits_of_le
    {value : Nat}
    (large : 10 ≤ value) :
    digits value = digits (value / 10) ++ [digit (value % 10)] := by
  rw [digits, Nat.toDigits_of_base_le (by decide) large, List.map_append,
    List.map_singleton, ofNat_digitChar (Nat.mod_lt value (by decide)), digits]

/-- A property of numerals that holds of single digits, and of a numeral with
one more digit, holds of all numerals. -/
theorem digits_induction
    {motive : Nat → List UInt8 → Prop}
    (small : ∀ value < 10, motive value [digit value])
    (large : ∀ value, 10 ≤ value → motive (value / 10) (digits (value / 10)) →
      motive value (digits (value / 10) ++ [digit (value % 10)]))
    (value : Nat) :
    motive value (digits value) := by
  induction value using Nat.strongRecOn with
  | ind value inductionHypothesis =>
      rcases Nat.lt_or_ge value 10 with short | long
      · rw [digits_of_lt short]
        exact small value short
      · rw [digits_of_le long]
        exact large value long (inductionHypothesis _ (by omega))

/-- A numeral consists of digits. -/
theorem isDigit_of_mem_digits
    {value : Nat}
    {byte : UInt8} :
    byte ∈ digits value → isDigit byte = true := by
  induction value using digits_induction with
  | small value short =>
      intro present
      rw [List.mem_singleton.mp present]
      exact isDigit_digit short
  | large value long inductionHypothesis =>
      intro present
      rcases List.mem_append.mp present with before | last
      · exact inductionHypothesis before
      · rw [List.mem_singleton.mp last]
        exact isDigit_digit (Nat.mod_lt value (by decide))

/-- Reading a numeral gives back the number, in any semiring. -/
theorem foldl_extend_digits
    {R : Type*}
    [Semiring R]
    (value : Nat) :
    (digits value).foldl extend (0 : R) = (value : R) := by
  induction value using digits_induction with
  | small value short =>
      rw [List.foldl_cons, List.foldl_nil, extend, digitValue_digit short,
        zero_mul, zero_add]
  | large value long inductionHypothesis =>
      rw [List.foldl_append, inductionHypothesis, List.foldl_cons,
        List.foldl_nil, extend, digitValue_digit (Nat.mod_lt value (by decide))]
      have whole : value / 10 * 10 + value % 10 = value := by omega
      exact_mod_cast congrArg (Nat.cast (R := R)) whole

/-- A numeral has a first digit. -/
theorem exists_digits_eq_cons (value : Nat) :
    ∃ first rest, digits value = first :: rest ∧ isDigit first = true := by
  have nonempty : digits value ≠ [] := by
    rw [digits, ne_eq, List.map_eq_nil_iff]
    exact Nat.toDigits_ne_nil
  obtain ⟨first, rest, equality⟩ := List.exists_cons_of_ne_nil nonempty
  refine ⟨first, rest, equality, ?_⟩
  apply isDigit_of_mem_digits
  rw [equality]
  exact List.mem_cons_self

/-- The numeral of a positive number starts with a digit other than zero. -/
theorem exists_digits_eq_cons_of_pos
    {value : Nat} :
    0 < value → ∃ first rest, digits value = first :: rest ∧
      49 ≤ first ∧ first ≤ 57 := by
  induction value using digits_induction with
  | small value short =>
      intro positive
      refine ⟨_, [], rfl, ?_⟩
      interval_cases value <;> decide
  | large value long inductionHypothesis =>
      intro _
      obtain ⟨first, rest, equality, range⟩ := inductionHypothesis (by omega)
      exact ⟨first, rest ++ _, by rw [equality, List.cons_append], range⟩

/-- A numeral is not longer than its number allows. -/
theorem length_digits_le
    {value width : Nat}
    (positive : 0 < width)
    (small : value < 10 ^ width) :
    (digits value).length ≤ width := by
  induction value using digits_induction generalizing width with
  | small value short => exact positive
  | large value long inductionHypothesis =>
      obtain ⟨width, rfl⟩ := Nat.exists_eq_add_one.mpr positive
      have shorter : value / 10 < 10 ^ width := by
        rw [pow_succ] at small
        omega
      have positive : 0 < width := by
        by_contra zero
        obtain rfl : width = 0 := by omega
        rw [pow_zero] at shorter
        omega
      have := inductionHypothesis positive shorter
      rw [List.length_append, List.length_singleton]
      omega

section Accumulators

variable {R : Type*} [CommSemiring R]

/-- Digits that are taken into a number move it up by their length. -/
theorem foldl_extend_eq_add
    (value : R)
    (numeral : List UInt8) :
    numeral.foldl extend value =
      value * 10 ^ numeral.length + numeral.foldl extend 0 := by
  induction numeral generalizing value with
  | nil => simp
  | cons byte numeral inductionHypothesis =>
      rw [List.foldl_cons, List.foldl_cons, inductionHypothesis,
        inductionHypothesis (extend 0 byte), List.length_cons, extend, extend]
      ring

theorem foldl_extend_replicate_zero (count : Nat) :
    (List.replicate count (48 : UInt8)).foldl extend (0 : R) = 0 := by
  induction count with
  | zero => rfl
  | succ count inductionHypothesis =>
      have zero : extend (0 : R) 48 = 0 := by
        simp [extend, digitValue]
      rw [List.replicate_succ, List.foldl_cons, zero, inductionHypothesis]

/-- Digits stand for the same number in any semiring. -/
theorem foldl_extend_cast (value : Nat) (numeral : List UInt8) :
    numeral.foldl extend (value : R) = ((numeral.foldl extend value : Nat) : R) := by
  induction numeral generalizing value with
  | nil => rfl
  | cons byte numeral inductionHypothesis =>
      rw [List.foldl_cons, List.foldl_cons, ← inductionHypothesis, extend, extend,
        Nat.cast_add, Nat.cast_mul, Nat.cast_ofNat, Nat.cast_id]

end Accumulators

end Decimal
end ProtobufSandbox
