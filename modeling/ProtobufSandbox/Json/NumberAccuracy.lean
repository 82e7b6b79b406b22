import ProtobufSandbox.Json.NumberCopies

/-!
# How exact a printed number is

Each format of `print_number` rounds to the nearest number that it can write. What the
text stands for is off by half of a millionth at most, or of a millionth of the number
where the number is larger than one.
-/

namespace ProtobufSandbox

/-- Rounding moves a number by a half at most. -/
theorem abs_roundHalfEven_sub_le
    {number : Rat}
    (nonneg : 0 ≤ number) :
    |(roundHalfEven number : Rat) - number| ≤ 1 / 2 := by
  have floorNonneg : 0 ≤ number.floor := Int.floor_nonneg.mpr nonneg
  have below : ((number.floor.toNat : Nat) : Rat) = number.floor := by
    have same := Int.toNat_of_nonneg floorNonneg
    exact_mod_cast congrArg (Int.cast (R := Rat)) same
  have lower : (number.floor : Rat) ≤ number := Int.floor_le number
  have upper : number < number.floor + 1 := Int.lt_floor_add_one number
  rw [roundHalfEven, below]
  split
  · next down =>
      have half : number - number.floor ≤ 1 / 2 := by
        rcases down with less | tie
        · exact less.le
        · exact tie.1.le
      rw [below, abs_le]
      constructor <;> linarith
  · next up =>
      have half : 1 / 2 ≤ number - number.floor := not_lt.mp (not_or.mp up).1
      rw [Nat.cast_add, below, Nat.cast_one, abs_le]
      constructor <;> linarith

theorem abs_signFactor (number : Rat) : |signFactor number| = 1 := by
  unfold signFactor
  split <;> norm_num

/-- A sign does not matter to how far a magnitude is off. -/
theorem abs_signFactor_mul_sub
    (number magnitude : Rat) :
    |signFactor number * magnitude - number| = |magnitude - (|number|)| := by
  calc |signFactor number * magnitude - number|
      = |signFactor number * magnitude - signFactor number * (|number|)| := by
        rw [signFactor_mul_abs]
    _ = |signFactor number| * |magnitude - (|number|)| := by rw [← mul_sub, abs_mul]
    _ = |magnitude - (|number|)| := by rw [abs_signFactor, one_mul]

/-- A multiple that is rounded and divided again. -/
theorem abs_roundHalfEven_mul_sub_le
    {number factor : Rat}
    (positive : 0 < factor) :
    |signFactor number * (roundHalfEven (|number| * factor) * factor⁻¹) - number| ≤
      1 / 2 * factor⁻¹ := by
  have inverse : 0 < factor⁻¹ := inv_pos.mpr positive
  have nonneg : 0 ≤ |number| * factor := mul_nonneg (abs_nonneg number) positive.le
  have whole : |number| = |number| * factor * factor⁻¹ :=
    (mul_inv_cancel_right₀ positive.ne' |number|).symm
  calc |signFactor number * (roundHalfEven (|number| * factor) * factor⁻¹) - number|
      = |roundHalfEven (|number| * factor) * factor⁻¹ - (|number|)| :=
        abs_signFactor_mul_sub number _
    _ = |(roundHalfEven (|number| * factor) - |number| * factor) * factor⁻¹| := by
        rw [sub_mul, ← whole]
    _ = |roundHalfEven (|number| * factor) - |number| * factor| * factor⁻¹ := by
        rw [abs_mul, abs_of_pos inverse]
    _ ≤ 1 / 2 * factor⁻¹ :=
        mul_le_mul_of_nonneg_right (abs_roundHalfEven_sub_le nonneg) inverse.le

/-- A number that is near an integer is rounded to it. -/
theorem abs_roundHalfEven_sub_le_of_near
    {number : Rat}
    (near : |(number.floor : Rat) - number| ≤ dblEpsilon) :
    |signFactor number * roundHalfEven |number| - number| ≤ dblEpsilon := by
  have error := @abs_roundHalfEven_mul_sub_le number 1 one_pos
  rw [mul_one, inv_one, mul_one, mul_one] at error
  have small : dblEpsilon < 1 / 2 := by norm_num [dblEpsilon]
  -- The rounded number is an integer within one of the integer that is near.
  obtain ⟨rounded, isRounded⟩ : ∃ rounded : Int,
      signFactor number * roundHalfEven |number| = rounded := by
    unfold signFactor
    split
    · exact ⟨-roundHalfEven |number|, by push_cast; ring⟩
    · exact ⟨roundHalfEven |number|, by push_cast; ring⟩
  rw [isRounded] at error ⊢
  have close : |(rounded : Rat) - number.floor| < 1 := by
    calc |(rounded : Rat) - number.floor|
        = |((rounded : Rat) - number) - (number.floor - number)| := by ring_nf
      _ ≤ |(rounded : Rat) - number| + |(number.floor : Rat) - number| := abs_sub _ _
      _ < 1 := by linarith
  have same : rounded = number.floor := by
    have integers : |rounded - number.floor| < 1 := by exact_mod_cast close
    exact sub_eq_zero.mp (Int.abs_lt_one_iff.mp integers)
  rw [same]
  exact near

namespace CJSON

/-- What the text of a number stands for is off by half of a millionth at most, or of a
millionth of the number. -/
theorem abs_printedValue_sub_le (item : CJSON) :
    |item.printedValue - item.valuedouble| ≤ 5 / 10 ^ 7 * max 1 |item.valuedouble| := by
  have one : (5 : Rat) / 10 ^ 7 ≤ 5 / 10 ^ 7 * max 1 |item.valuedouble| :=
    le_mul_of_one_le_right (by norm_num) (le_max_left 1 _)
  have relative : 5 / 10 ^ 7 * |item.valuedouble| ≤
      5 / 10 ^ 7 * max 1 |item.valuedouble| :=
    mul_le_mul_of_nonneg_left (le_max_right 1 _) (by norm_num)
  have epsilon : dblEpsilon ≤ 5 / 10 ^ 7 := by norm_num [dblEpsilon]
  unfold printedValue
  dsimp only
  split_ifs with integer whole exponent
  · exact integer.1.trans (epsilon.trans one)
  · exact (abs_roundHalfEven_sub_le_of_near whole.1).trans (epsilon.trans one)
  · have nonzero : item.valuedouble ≠ 0 := by
      intro zero
      apply whole
      have floor : Rat.floor 0 = 0 := rfl
      rw [zero, floor, Int.cast_zero, sub_zero, abs_zero]
      norm_num [dblEpsilon]
    have scale : (10 : Rat) ^ (6 - Int.log 10 |item.valuedouble|) =
        (10 ^ Int.log 10 |item.valuedouble|)⁻¹ * 10 ^ 6 := by
      rw [zpow_sub₀ (by norm_num), div_eq_inv_mul]
      norm_cast
    have inverse : (10 : Rat) ^ (Int.log 10 |item.valuedouble| - 6) =
        ((10 : Rat) ^ (6 - Int.log 10 |item.valuedouble|))⁻¹ := by
      rw [← zpow_neg, neg_sub]
    have error := @abs_roundHalfEven_mul_sub_le item.valuedouble
      (10 ^ (6 - Int.log 10 |item.valuedouble|)) (zpow_pos (by norm_num) _)
    have lowest := Int.zpow_log_le_self (show 1 < 10 by decide) (abs_pos.mpr nonzero)
    rw [mul_assoc, scientific_value, inverse, div_eq_mul_inv, mul_assoc |item.valuedouble|,
      ← scale]
    refine error.trans (le_trans ?_ relative)
    rw [← inverse, zpow_sub₀ (by norm_num)]
    rw [Nat.cast_ofNat] at lowest
    norm_num
    linarith
  · have inverse : (10 : Rat) ^ (-6 : Int) = (10 ^ 6)⁻¹ := by
      rw [zpow_neg]
      norm_cast
    have error := @abs_roundHalfEven_mul_sub_le item.valuedouble (10 ^ 6) (by norm_num)
    rw [inverse, mul_assoc]
    refine error.trans (le_trans ?_ one)
    norm_num

end CJSON
end ProtobufSandbox
