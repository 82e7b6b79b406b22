import ProtobufSandbox.Json.Numbers

/-!
# The widths of printed numbers

How long the text of a number can get in each format of `print_number`. The
`"%e"` format is the only one whose width depends on the range of a `double`.
-/

namespace ProtobufSandbox

/-- The numbers in the range of a `double`: below `2 ^ 1024`, and zero or not
smaller than the smallest subnormal one. -/
def InDoubleRange (number : Rat) : Prop :=
  |number| < 2 ^ 1024 ∧ (number = 0 ∨ 1 / 2 ^ 1074 ≤ |number|)

instance (number : Rat) : Decidable (InDoubleRange number) :=
  inferInstanceAs (Decidable (_ ∧ (_ ∨ _)))

/-- Rounding does not pass a whole number. -/
theorem roundHalfEven_le
    {number : Rat}
    {bound : Nat}
    (small : number ≤ bound) :
    roundHalfEven number ≤ bound := by
  have floor_le : number.floor ≤ bound := by
    have below : (number.floor : Rat) ≤ bound := (Int.floor_le number).trans small
    exact_mod_cast below
  rw [roundHalfEven]
  split
  · omega
  · next above =>
      rcases Nat.lt_or_ge number.floor.toNat bound with less | reached
      · omega
      -- The number is the bound itself, and nothing is left to round up.
      · have whole : (bound : Rat) ≤ number.floor.toNat := by exact_mod_cast reached
        push Not at above
        have half := above.1
        linarith

theorem length_signOf_le (number : Rat) : (signOf number).length ≤ 1 := by
  unfold signOf
  split <;> simp

theorem length_formatInt_le (number : Int32) :
    (formatInt number).length ≤ 11 := by
  have small : number.toInt.natAbs < 10 ^ 10 := by
    have below := number.toInt_lt
    have above := number.le_toInt
    omega
  have width := Decimal.length_digits_le (by decide) small
  unfold formatInt
  split
  · rw [List.length_cons]
    omega
  · omega

theorem length_formatWhole_le
    {number : Rat}
    (small : |number| < 10 ^ 60) :
    (formatWhole number).length ≤ 62 := by
  have rounded : roundHalfEven |number| ≤ 10 ^ 60 :=
    roundHalfEven_le (by exact_mod_cast small.le)
  have width := Decimal.length_digits_le (show 0 < 61 by decide)
    (rounded.trans_lt (by decide))
  have sign := length_signOf_le number
  rw [formatWhole, List.length_append]
  omega

theorem length_formatFixed_le
    {number : Rat}
    (small : |number| ≤ 10 ^ 9) :
    (formatFixed number).length ≤ 18 := by
  have rounded : roundHalfEven (|number| * 10 ^ 6) ≤ 10 ^ 15 := by
    apply roundHalfEven_le
    push_cast
    linarith
  have whole := Decimal.length_digits_le (show 0 < 10 by decide)
    (show roundHalfEven (|number| * 10 ^ 6) / 10 ^ 6 < 10 ^ 10 by omega)
  have fraction := CJSON.length_padded (show 0 < 6 by decide)
    (Nat.mod_lt (roundHalfEven (|number| * 10 ^ 6)) (show 0 < 10 ^ 6 by decide))
  have sign := length_signOf_le number
  simp only [formatFixed, List.length_append, List.length_cons, fraction]
  omega

/-- `"%e"` prints seven digits. -/
theorem scientific_fst_lt (number : Rat) : (scientific number).1 < 10 ^ 7 := by
  have power : (0 : Rat) < 10 ^ Int.log 10 |number| := zpow_pos (by norm_num) _
  have below := Int.lt_zpow_succ_log_self (show 1 < 10 by decide) |number|
  rw [Nat.cast_ofNat, zpow_add_one₀ (by norm_num)] at below
  have quotient : |number| / 10 ^ Int.log 10 |number| < 10 := by
    rw [div_lt_iff₀ power]
    linarith
  have rounded :
      roundHalfEven (|number| / 10 ^ Int.log 10 |number| * 10 ^ 6) ≤ 10 ^ 7 := by
    apply roundHalfEven_le
    push_cast
    linarith
  simp only [scientific, decide_eq_true_eq]
  split_ifs
  · decide
  · omega

/-- The exponent of a `double` has three digits. -/
theorem scientific_snd_lt
    {number : Rat}
    (inRange : InDoubleRange number) :
    (scientific number).2.natAbs < 10 ^ 3 := by
  have bounds : -324 ≤ Int.log 10 |number| ∧ Int.log 10 |number| < 309 := by
    obtain ⟨small, rfl | large⟩ := inRange
    · rw [abs_zero, Int.log_zero_right]
      decide
    have positive : 0 < |number| := lt_of_lt_of_le (by positivity) large
    have powers : (2 : Rat) ^ 1074 ≤ 10 ^ 324 ∧ (2 : Rat) ^ 1024 < 10 ^ 309 := by
      constructor
      · exact_mod_cast (by decide +kernel : 2 ^ 1074 ≤ 10 ^ 324)
      · exact_mod_cast (by decide +kernel : 2 ^ 1024 < 10 ^ 309)
    constructor
    · rw [← Int.zpow_le_iff_le_log (by decide) positive, Nat.cast_ofNat, zpow_neg]
      refine le_trans ?_ large
      rw [one_div]
      exact inv_anti₀ (by positivity) powers.1
    · rw [← Int.lt_zpow_iff_log_lt (by decide) positive]
      exact small.trans powers.2
  simp only [scientific, decide_eq_true_eq]
  split_ifs <;> omega

theorem length_formatExponent_le
    {number : Rat}
    (inRange : InDoubleRange number) :
    (formatExponent number).length ≤ 14 := by
  have digits := scientific_fst_lt number
  have leading := Decimal.length_digits_le (show 0 < 1 by decide)
    (show (scientific number).1 / 10 ^ 6 < 10 ^ 1 by omega)
  have fraction := CJSON.length_padded (show 0 < 6 by decide)
    (Nat.mod_lt (scientific number).1 (show 0 < 10 ^ 6 by decide))
  have exponent : (padded 2 (scientific number).2.natAbs).length ≤ 3 := by
    have width := Decimal.length_digits_le (by decide) (scientific_snd_lt inRange)
    rw [padded, List.length_append, List.length_replicate]
    omega
  have sign := length_signOf_le number
  rw [formatExponent_eq]
  simp only [List.length_append, List.length_cons, fraction, ascii, List.map_cons,
    List.map_nil, List.length_nil]
  omega

end ProtobufSandbox
