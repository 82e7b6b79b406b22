import ProtobufSandbox.Json.Scalars

/-!
# Numbers of any value, printed and parsed

Which number the text of a number stands for, in each of the formats of
`print_number`. The parser reads exactly that number from the text, and it
converts it to an integer by itself.
-/

namespace ProtobufSandbox

/-- The sign that a format prints, as a factor. -/
def signFactor (number : Rat) : Rat :=
  if number < 0 then -1 else 1

/-- The seven digits and the exponent that `"%e"` prints. -/
def scientific (number : Rat) : Nat × Int :=
  let exponent := Int.log 10 |number|
  let rounded := roundHalfEven (|number| / 10 ^ exponent * 10 ^ 6)
  let carried := decide (rounded = 10 ^ 7)
  (if carried then 10 ^ 6 else rounded,
    if carried then exponent + 1 else exponent)

theorem formatExponent_eq (number : Rat) :
    formatExponent number =
      signOf number ++
        (Decimal.digits ((scientific number).1 / 10 ^ 6) ++
          point :: (padded 6 ((scientific number).1 % 10 ^ 6) ++
            (ascii ['e', if (scientific number).2 < 0 then '-' else '+'] ++
              padded 2 (scientific number).2.natAbs))) := by
  simp only [formatExponent, scientific, List.append_assoc, List.cons_append]
  rfl

namespace CJSON

/-- The number that the text of a number item stands for. -/
def printedValue (item : CJSON) : Rat :=
  let d := item.valuedouble
  if |(item.valueint.toInt : Rat) - d| ≤ dblEpsilon ∧
      d ≤ Int32.maxValue.toInt ∧ Int32.minValue.toInt ≤ d then
    item.valueint.toInt
  else if |(d.floor : Rat) - d| ≤ dblEpsilon ∧ |d| < 10 ^ 60 then
    signFactor d * roundHalfEven |d|
  else if |d| < 1 / 10 ^ 6 ∨ 10 ^ 9 < |d| then
    signFactor d * (scientific d).1 * 10 ^ ((scientific d).2 - 6)
  else signFactor d * roundHalfEven (|d| * 10 ^ 6) * 10 ^ (-6 : Int)

/-! ## The parts of a number -/

/-- The sign of a format in front of a digit. -/
theorem readSign_signOf
    (number : Rat)
    {first : UInt8}
    (isDigit : Decimal.isDigit first = true)
    (tail : Bytes) :
    readSign (signOf number ++ first :: tail) =
      .ok (signFactor number, first :: tail) := by
  unfold signOf signFactor
  split
  · rfl
  · have notMinus : first ≠ minus := by
      rintro rfl
      revert isDigit
      decide
    rw [List.nil_append, readSign, peek_cons, Outcome.ok_bind, if_neg notMinus]
    rfl

theorem isDigit_of_mem_padded
    {width value : Nat}
    {byte : UInt8}
    (present : byte ∈ padded width value) :
    Decimal.isDigit byte = true := by
  cases List.mem_append.mp present with
  | inl zero =>
      rw [List.eq_of_mem_replicate zero]
      rfl
  | inr digit => exact Decimal.isDigit_of_mem_digits digit

theorem length_padded
    {width value : Nat}
    (positive : 0 < width)
    (small : value < 10 ^ width) :
    (padded width value).length = width := by
  have short := Decimal.length_digits_le positive small
  rw [padded, List.length_append, List.length_replicate]
  omega

theorem foldl_extend_padded
    {R : Type}
    [CommSemiring R]
    (width value : Nat) :
    (padded width value).foldl Decimal.extend (0 : R) = (value : R) := by
  rw [padded, List.foldl_append, Decimal.foldl_extend_replicate_zero,
    Decimal.foldl_extend_digits]

/-- A fraction of six digits. -/
theorem readFraction_padded
    (n : Rat)
    {value : Nat}
    (small : value < 10 ^ 6)
    {byte : UInt8}
    (notDigit : Decimal.isDigit byte = false)
    (rest : Bytes) :
    readFraction n (point :: (padded 6 value ++ byte :: rest)) =
      .ok (n * 10 ^ 6 + value, 6, byte :: rest) := by
  have areDigits : ∀ byte ∈ padded 6 value, Decimal.isDigit byte = true :=
    fun byte present => isDigit_of_mem_padded present
  have length := length_padded (by decide) small
  have read := readDigits_append n areDigits notDigit rest
  rw [Decimal.foldl_extend_eq_add, foldl_extend_padded, length] at read
  obtain ⟨first, tail, spelled⟩ : ∃ first tail, padded 6 value = first :: tail := by
    apply List.exists_cons_of_ne_nil
    rintro empty
    simp [empty] at length
  have firstDigit := areDigits first (spelled ▸ List.mem_cons_self)
  rw [spelled, List.cons_append] at read ⊢
  simp only [readFraction, peek_cons, Outcome.ok_bind, if_true, List.drop_succ_cons,
    List.drop_zero, firstDigit, read]

/-- An exponent with its sign. -/
theorem readExponent_signed
    (exponent : Int)
    {byte : UInt8}
    (notDigit : Decimal.isDigit byte = false)
    (rest : Bytes) :
    readExponent
        (ascii ['e', if exponent < 0 then '-' else '+'] ++
          (padded 2 exponent.natAbs ++ byte :: rest)) =
      .ok (exponent, byte :: rest) := by
  have areDigits : ∀ byte ∈ padded 2 exponent.natAbs,
      Decimal.isDigit byte = true :=
    fun byte present => isDigit_of_mem_padded present
  have read := readDigits_append (0 : Int) areDigits notDigit rest
  rw [foldl_extend_padded] at read
  by_cases negative : exponent < 0
  · have value : -(exponent.natAbs : Int) = exponent := by omega
    rw [if_pos negative]
    change (readDigits (0 : Int) (padded 2 exponent.natAbs ++ byte :: rest) >>=
      fun result => Except.ok (-result.1, result.2.2)) = _
    rw [read, Outcome.ok_bind, value]
  · have value : (exponent.natAbs : Int) = exponent := by omega
    rw [if_neg negative]
    change (readDigits (0 : Int) (padded 2 exponent.natAbs ++ byte :: rest) >>=
      fun result => Except.ok (result.1, result.2.2)) = _
    rw [read, Outcome.ok_bind, value]

/-! ## Whole texts -/

/-- A number is read part by part. -/
theorem parseNumber_of_parts
    (new : CJSON)
    {text afterSign afterWhole afterFraction rest : Bytes}
    {sign whole n : Rat}
    {scale : Nat}
    {subscale : Int}
    (signRead : readSign text = .ok (sign, afterSign))
    (wholeRead : readWhole afterSign = .ok (whole, afterWhole))
    (fractionRead : readFraction whole afterWhole =
      .ok (n, scale, afterFraction))
    (exponentRead : readExponent afterFraction = .ok (subscale, rest)) :
    parseNumber new text =
      .ok ({ new with
          valuedouble := sign * n * 10 ^ (subscale - scale)
          valueint := toInt (sign * n * 10 ^ (subscale - scale))
          type := .number },
        rest) := by
  simp only [parseNumber, signRead, wholeRead, fractionRead, exponentRead,
    Outcome.ok_bind]
  rfl

/-- A sign in front of a numeral. -/
theorem readSign_numeral
    (d : Rat)
    (whole : Nat)
    (rest : Bytes) :
    readSign (signOf d ++ (Decimal.digits whole ++ rest)) =
      .ok (signFactor d, Decimal.digits whole ++ rest) := by
  obtain ⟨first, tail, spelled, isDigit⟩ := Decimal.exists_digits_eq_cons whole
  rw [spelled]
  exact readSign_signOf d isDigit (tail ++ rest)

/-- The digits in front of the point and those behind it. -/
theorem cast_div_mul_add_mod (value : Nat) :
    ((value / 10 ^ 6 : Nat) : Rat) * 10 ^ 6 + (value % 10 ^ 6 : Nat) = value := by
  have whole := Nat.div_add_mod' value (10 ^ 6)
  exact_mod_cast whole

section Formats

variable (new : CJSON) (d : Rat) {rest : Bytes}

theorem parseNumber_whole
    (value : Nat)
    (delimited : Delimited rest) :
    parseNumber new (signOf d ++ (Decimal.digits value ++ rest)) =
      .ok ({ new with
          valuedouble := signFactor d * value
          valueint := toInt (signFactor d * value)
          type := .number },
        rest) := by
  cases rest with
  | nil => exact delimited.elim
  | cons byte rest =>
      obtain ⟨notDigit, notPoint, notLower, notUpper⟩ := delimited
      have read := parseNumber_of_parts new
        (readSign_numeral d value (byte :: rest))
        (readWhole_digits value notDigit rest)
        (readFraction_of_ne notPoint (value : Rat) rest)
        (readExponent_of_ne notLower notUpper rest)
      simpa using read

theorem parseNumber_fixed
    (value : Nat)
    (delimited : Delimited rest) :
    parseNumber new
        (signOf d ++ (Decimal.digits (value / 10 ^ 6) ++
          point :: (padded 6 (value % 10 ^ 6) ++ rest))) =
      .ok ({ new with
          valuedouble := signFactor d * value * 10 ^ (-6 : Int)
          valueint := toInt (signFactor d * value * 10 ^ (-6 : Int))
          type := .number },
        rest) := by
  cases rest with
  | nil => exact delimited.elim
  | cons byte rest =>
      obtain ⟨notDigit, notPoint, notLower, notUpper⟩ := delimited
      have pointNoDigit : Decimal.isDigit point = false := rfl
      have read := parseNumber_of_parts new
        (readSign_numeral d (value / 10 ^ 6) _)
        (readWhole_digits (value / 10 ^ 6) pointNoDigit _)
        (readFraction_padded _ (Nat.mod_lt value (by decide)) notDigit rest)
        (readExponent_of_ne notLower notUpper rest)
      rw [cast_div_mul_add_mod] at read
      exact read

theorem parseNumber_scientific
    (mantissa : Nat)
    (exponent : Int)
    (delimited : Delimited rest) :
    parseNumber new
        (signOf d ++ (Decimal.digits (mantissa / 10 ^ 6) ++
          point :: (padded 6 (mantissa % 10 ^ 6) ++
            (ascii ['e', if exponent < 0 then '-' else '+'] ++
              (padded 2 exponent.natAbs ++ rest))))) =
      .ok ({ new with
          valuedouble := signFactor d * mantissa * 10 ^ (exponent - 6)
          valueint := toInt (signFactor d * mantissa * 10 ^ (exponent - 6))
          type := .number },
        rest) := by
  cases rest with
  | nil => exact delimited.elim
  | cons byte rest =>
      have pointNoDigit : Decimal.isDigit point = false := rfl
      have letterNoDigit : Decimal.isDigit (UInt8.ofNat 'e'.toNat) = false := rfl
      have read := parseNumber_of_parts new
        (readSign_numeral d (mantissa / 10 ^ 6) _)
        (readWhole_digits (mantissa / 10 ^ 6) pointNoDigit _)
        (readFraction_padded _ (Nat.mod_lt mantissa (by decide)) letterNoDigit _)
        (readExponent_signed exponent delimited.1 rest)
      rw [cast_div_mul_add_mod] at read
      exact read

end Formats

/-- The parser reads the number that the text of a number stands for. -/
theorem parseNumber_printNumber
    (new item : CJSON)
    {rest : Bytes}
    (delimited : Delimited rest) :
    parseNumber new (item.printNumber ++ rest) =
      .ok ({ new with
          valuedouble := item.printedValue
          valueint := toInt item.printedValue
          type := .number },
        rest) := by
  unfold printNumber printedValue
  dsimp only
  split_ifs with integer whole exponent
  · rw [parseNumber_formatInt new item.valueint delimited, toInt_intCast]
  · rw [formatWhole, List.append_assoc]
    exact parseNumber_whole new _ _ delimited
  · rw [formatExponent_eq]
    simp only [List.append_assoc, List.cons_append]
    exact parseNumber_scientific new _ _ _ delimited
  · simp only [formatFixed, List.append_assoc, List.cons_append]
    exact parseNumber_fixed new _ _ delimited

/-- The text of a number starts with a sign or a digit. -/
theorem exists_printNumber_eq_cons (item : CJSON) :
    ∃ first tail, item.printNumber = first :: tail ∧
      (first = minus ∨ Decimal.isDigit first = true) := by
  have numeral (value : Nat) (rest : Bytes) :
      ∃ first tail, Decimal.digits value ++ rest = first :: tail ∧
        (first = minus ∨ Decimal.isDigit first = true) := by
    obtain ⟨first, tail, spelled, isDigit⟩ := Decimal.exists_digits_eq_cons value
    exact ⟨first, tail ++ rest, by rw [spelled, List.cons_append], .inr isDigit⟩
  have signed (number : Rat) (value : Nat) (rest : Bytes) :
      ∃ first tail, signOf number ++ (Decimal.digits value ++ rest) =
          first :: tail ∧
        (first = minus ∨ Decimal.isDigit first = true) := by
    unfold signOf
    split
    · exact ⟨minus, _, rfl, .inl rfl⟩
    · exact numeral value rest
  unfold printNumber
  dsimp only
  split_ifs
  · unfold formatInt
    split
    · exact ⟨minus, _, rfl, .inl rfl⟩
    · simpa using numeral item.valueint.toInt.natAbs []
  · simpa [formatWhole] using signed item.valuedouble _ []
  · rw [formatExponent_eq]
    exact signed item.valuedouble _ _
  · simp only [formatFixed, List.append_assoc]
    exact signed item.valuedouble _ _

/-- A number with the same value in both fields is printed as that value. -/
theorem printedValue_of_integer
    {item : CJSON}
    (integer : item.valuedouble = item.valueint.toInt) :
    item.printedValue = item.valueint.toInt := by
  rw [printedValue, if_pos (near_of_integer integer)]

end CJSON
end ProtobufSandbox
