import ProtobufSandbox.Foundation.JsonText
import ProtobufSandbox.Json.LocalReads
import ProtobufSandbox.Json.RoundTrip

/-!
# What a text means to the parser

The parser takes every text of the grammar, and makes the tree of the value that the text
stands for: numbers are read exactly, and strings become UTF-8, but for the character
zero, which is left out.
-/

namespace ProtobufSandbox

open JsonText CJSON

/-! ## Numbers -/

/-- A byte at which digits end. -/
theorem delimited_cons
    {rest : Bytes}
    (delimited : Delimited rest) :
    ∃ byte tail, rest = byte :: tail ∧ Decimal.isDigit byte = false ∧ byte ≠ point ∧
      byte ≠ UInt8.ofNat 'e'.toNat ∧ byte ≠ UInt8.ofNat 'E'.toNat := by
  cases rest with
  | nil => exact delimited.elim
  | cons byte tail => exact ⟨byte, tail, rfl, delimited⟩

theorem readDigits_valueOf
    {R : Type}
    [CommSemiring R]
    (n : Nat)
    {digits : Bytes}
    (areDigits : Digits digits)
    {byte : UInt8}
    (notDigit : Decimal.isDigit byte = false)
    (rest : Bytes) :
    readDigits (n : R) (digits ++ byte :: rest) =
      .ok (((digits.foldl Decimal.extend n : Nat) : R), digits.length, byte :: rest) := by
  rw [readDigits_append (n : R) areDigits notDigit, Decimal.foldl_extend_cast]

/-- An exponent behind its letter, whose sign is one byte or missing. -/
theorem readExponent_letter
    {letter sign : UInt8}
    {digits text : Bytes}
    (isLetter : letter = UInt8.ofNat 'e'.toNat ∨ letter = UInt8.ofNat 'E'.toNat)
    (isText : text = if sign = UInt8.ofNat '+'.toNat ∨ sign = minus then sign :: digits
      else digits)
    (first : ∃ others, text = sign :: others)
    (areDigits : Digits digits)
    {byte : UInt8}
    (notDigit : Decimal.isDigit byte = false)
    (tail : Bytes) :
    readExponent (letter :: (text ++ byte :: tail)) =
      .ok (if sign = minus then -(valueOf digits : Int) else valueOf digits,
        byte :: tail) := by
  obtain ⟨others, startsWith⟩ := first
  have read := @readDigits_valueOf Int _ 0 digits areDigits byte notDigit tail
  have peeked : peek (text ++ byte :: tail) = .ok sign := by
    rw [startsWith]
    rfl
  have behind : (if sign = UInt8.ofNat '+'.toNat ∨ sign = minus then
      (text ++ byte :: tail).drop 1 else text ++ byte :: tail) = digits ++ byte :: tail := by
    split_ifs at isText ⊢
    · rw [isText]
      rfl
    · rw [isText]
  rw [readExponent, peek_cons, Outcome.ok_bind, if_pos isLetter, List.drop_succ_cons,
    List.drop_zero]
  dsimp only
  rw [peeked, Outcome.ok_bind, behind, ← Nat.cast_zero, read]
  rfl

theorem readExponent_meaning
    {text rest : Bytes}
    {power : Int}
    (isExponent : Exponent text power)
    (delimited : Delimited rest) :
    readExponent (text ++ rest) = .ok (power, rest) := by
  obtain ⟨byte, tail, rfl, notDigit, -, notLower, notUpper⟩ := delimited_cons delimited
  cases isExponent with
  | none => exact readExponent_of_ne notLower notUpper tail
  | @digits letter sign digits factor isLetter isSign some areDigits =>
      obtain ⟨first, others, rfl⟩ := List.exists_cons_of_ne_nil some
      cases isSign with
      | none =>
          have isDigit := areDigits first List.mem_cons_self
          have unsigned : ∀ digit : UInt8, Decimal.isDigit digit = true →
              ¬ (digit = UInt8.ofNat '+'.toNat ∨ digit = minus) :=
            forall_byte (by decide)
          have plain := unsigned first isDigit
          have read := @readExponent_letter letter first (first :: others) (first :: others)
            isLetter (if_neg plain).symm ⟨others, rfl⟩ areDigits byte notDigit tail
          rw [if_neg fun same => plain (.inr same)] at read
          rw [one_mul]
          exact read
      | plus =>
          rw [one_mul]
          exact @readExponent_letter letter _ (first :: others) (_ :: first :: others)
            isLetter rfl ⟨_, rfl⟩ areDigits byte notDigit tail
      | minus =>
          rw [neg_one_mul]
          exact @readExponent_letter letter _ (first :: others) (_ :: first :: others)
            isLetter rfl ⟨_, rfl⟩ areDigits byte notDigit tail

/-- Neither a digit nor a point stands in front of an exponent. -/
theorem exponent_cons
    {text rest : Bytes}
    {power : Int}
    (isExponent : Exponent text power)
    (delimited : Delimited rest) :
    ∃ byte tail, text ++ rest = byte :: tail ∧ Decimal.isDigit byte = false ∧
      byte ≠ point := by
  obtain ⟨byte, tail, rfl, notDigit, notPoint, -⟩ := delimited_cons delimited
  cases isExponent with
  | none => exact ⟨byte, tail, rfl, notDigit, notPoint⟩
  | @digits letter sign digits factor isLetter isSign some areDigits =>
      refine ⟨letter, _, rfl, ?_⟩
      rcases isLetter with rfl | rfl <;> decide

theorem readFraction_meaning
    {text digits behind : Bytes}
    {byte : UInt8}
    (n : Nat)
    (isFraction : Fraction text digits)
    (notDigit : Decimal.isDigit byte = false)
    (notPoint : byte ≠ point) :
    readFraction n (text ++ byte :: behind) =
      .ok (((digits.foldl Decimal.extend n : Nat) : Rat), digits.length, byte :: behind) := by
  cases isFraction with
  | none => exact readFraction_of_ne notPoint (n : Rat) behind
  | digits some areDigits =>
      obtain ⟨first, others, rfl⟩ := List.exists_cons_of_ne_nil some
      have read := @readDigits_valueOf Rat _ n _ areDigits byte notDigit behind
      rw [List.cons_append, readFraction, peek_cons, Outcome.ok_bind, if_pos rfl,
        List.drop_succ_cons, List.drop_zero, List.cons_append, peek_cons, Outcome.ok_bind,
        if_pos (areDigits first List.mem_cons_self), ← List.cons_append, read]

/-- No digit stands behind the digits in front of the point. -/
theorem fraction_cons
    {text digits rest : Bytes}
    {byte : UInt8}
    (isFraction : Fraction text digits)
    (notDigit : Decimal.isDigit byte = false) :
    ∃ first tail, text ++ byte :: rest = first :: tail ∧ Decimal.isDigit first = false := by
  cases isFraction with
  | none => exact ⟨byte, rest, rfl, notDigit⟩
  | digits some areDigits => exact ⟨point, _, rfl, rfl⟩

theorem readWhole_meaning
    {text : Bytes}
    {byte : UInt8}
    (isWhole : Whole text)
    (notDigit : Decimal.isDigit byte = false)
    (rest : Bytes) :
    readWhole (text ++ byte :: rest) = .ok ((valueOf text : Rat), byte :: rest) := by
  cases isWhole with
  | zero => exact readWhole_digits 0 notDigit rest
  | @digits first digits positive others =>
      have notZero : first ≠ zeroDigit :=
        (UInt8.ne_of_lt (UInt8.lt_of_lt_of_le (by decide) positive.1)).symm
      have later : zeroDigit < first ∧ first ≤ 57 :=
        ⟨UInt8.lt_of_lt_of_le (by decide) positive.1, positive.2⟩
      have areDigits : Digits (first :: digits) := by
        intro byte present
        rcases List.mem_cons.mp present with rfl | behind
        · exact decide_eq_true ⟨UInt8.le_of_lt later.1, later.2⟩
        · exact others byte behind
      have read := @readDigits_valueOf Rat _ 0 _ areDigits byte notDigit rest
      rw [Nat.cast_zero, List.cons_append] at read
      simp only [List.cons_append, readWhole, peek_cons, Outcome.ok_bind, if_neg notZero,
        if_pos later, read]
      rfl

theorem readSign_meaning
    {sign whole : Bytes}
    {factor : Rat}
    (isSign : JsonText.Sign sign factor)
    (isWhole : Whole whole)
    (rest : Bytes) :
    readSign (sign ++ (whole ++ rest)) = .ok (factor, whole ++ rest) := by
  cases isSign with
  | minus => rfl
  | plus =>
      obtain ⟨first, tail, rfl, notMinus⟩ : ∃ first tail, whole = first :: tail ∧
          first ≠ minus := by
        cases isWhole with
        | zero => exact ⟨_, _, rfl, by decide⟩
        | @digits first digits positive others =>
            refine ⟨first, digits, rfl, ?_⟩
            rintro rfl
            exact absurd positive.1 (by decide)
      exact if_neg notMinus

/-- A number is read as what it stands for. -/
theorem parseNumber_meaning
    {allowed : Numerals}
    {text rest : Bytes}
    {n : Rat}
    (isNumber : Number allowed text n)
    (new : CJSON)
    (delimited : Delimited rest) :
    parseNumber new (text ++ rest) =
      .ok ({ new with valuedouble := n, valueint := toInt n, type := .number }, rest) := by
  cases isNumber with
  | @parts sign whole fraction digits exponent factor power isSign isWhole isFraction
      isExponent _ =>
      obtain ⟨byte, tail, isRest, notDigit, notPoint⟩ := exponent_cons isExponent delimited
      obtain ⟨first, behind, isFirst, notFirst⟩ :=
        @fraction_cons _ _ tail _ isFraction notDigit
      rw [List.append_assoc, List.append_assoc, List.append_assoc, isRest, isFirst]
      have signRead := readSign_meaning isSign isWhole (first :: behind)
      have wholeRead := readWhole_meaning isWhole notFirst behind
      have fractionRead := @readFraction_meaning fraction digits tail byte (valueOf whole)
        isFraction notDigit notPoint
      rw [isFirst] at fractionRead
      have exponentRead := readExponent_meaning isExponent delimited
      rw [isRest] at exponentRead
      have total : valueOf (whole ++ digits) = digits.foldl Decimal.extend (valueOf whole) :=
        List.foldl_append
      rw [parseNumber_of_parts new signRead wholeRead fractionRead exponentRead, total]

/-! ## UTF-8 -/

/-- A byte behind the first one of a character. -/
theorem continuation_eq (v : UInt32) :
    ((v ||| 0x80) &&& 0xBF).toUInt8 = UInt8.ofNat (v.toNat % 0x40 + 0x80) := by
  have bytes : ∀ byte : UInt8, (byte ||| 0x80) &&& 0xBF =
      UInt8.ofNat (byte.toNat % 0x40 + 0x80) :=
    forall_byte (by decide)
  have low : v.toUInt8.toNat % 0x40 = v.toNat % 0x40 := by
    rw [UInt32.toNat_toUInt8]
    omega
  rw [UInt32.toUInt8_and, UInt32.toUInt8_or, ← low]
  exact bytes v.toUInt8

/-- The first byte of a character, with its mark. -/
theorem firstByte_eq
    {v mark : UInt32}
    {bound : Nat}
    (marks : ∀ byte : UInt8, byte.toNat < bound →
      byte ||| mark.toUInt8 = UInt8.ofNat (byte.toNat + mark.toNat))
    (small : v.toNat < bound)
    (isByte : bound ≤ 256) :
    (v ||| mark).toUInt8 = UInt8.ofNat (v.toNat + mark.toNat) := by
  have low : v.toUInt8.toNat = v.toNat := by
    rw [UInt32.toNat_toUInt8]
    omega
  rw [UInt32.toUInt8_or, ← low]
  exact marks v.toUInt8 (low ▸ small)

theorem toNat_shiftRight_six (v : UInt32) : (v >>> 6).toNat = v.toNat / 64 := by
  rw [UInt32.toNat_shiftRight]
  exact Nat.shiftRight_eq_div_pow v.toNat 6

/-- The parser writes characters as UTF-8. -/
theorem encodeUtf8_eq (c : Char) : encodeUtf8 c.val = String.utf8EncodeChar c := by
  have bounded : c.val.toNat < 0x110000 := by
    rcases c.valid with low | high
    · exact Nat.lt_trans low (by decide)
    · exact high.2
  have one : ∀ byte : UInt8, byte.toNat < 0x80 →
      byte ||| (firstByteMark 1).toUInt8 = UInt8.ofNat (byte.toNat + 0) :=
    forall_byte (by decide)
  have two : ∀ byte : UInt8, byte.toNat < 0x20 →
      byte ||| (firstByteMark 2).toUInt8 = UInt8.ofNat (byte.toNat + 0xC0) :=
    forall_byte (by decide)
  have three : ∀ byte : UInt8, byte.toNat < 0x10 →
      byte ||| (firstByteMark 3).toUInt8 = UInt8.ofNat (byte.toNat + 0xE0) :=
    forall_byte (by decide)
  have four : ∀ byte : UInt8, byte.toNat < 0x08 →
      byte ||| (firstByteMark 4).toUInt8 = UInt8.ofNat (byte.toNat + 0xF0) :=
    forall_byte (by decide)
  have byTwo : (c.val >>> 6).toNat = c.val.toNat / 64 := toNat_shiftRight_six _
  have byThree : (c.val >>> 6 >>> 6).toNat = c.val.toNat / 4096 := by
    rw [toNat_shiftRight_six, byTwo, Nat.div_div_eq_div_mul]
  have byFour : (c.val >>> 6 >>> 6 >>> 6).toNat = c.val.toNat / 262144 := by
    rw [toNat_shiftRight_six, byThree, Nat.div_div_eq_div_mul]
  simp only [encodeUtf8, String.utf8EncodeChar, UInt32.lt_iff_toNat_lt, UInt32.reduceToNat,
    ← Nat.lt_succ_iff, writeBack, continuation_eq, byTwo, byThree]
  by_cases ascii : c.val.toNat < 0x80
  · rw [if_pos ascii, if_pos ascii, firstByte_eq one ascii (by decide)]
    rfl
  rw [if_neg ascii, if_neg ascii]
  by_cases short : c.val.toNat < 0x800
  · have small : c.val.toNat / 64 < 0x20 := by omega
    rw [if_pos short, if_pos short, firstByte_eq two (byTwo ▸ small) (by decide), byTwo,
      Nat.mod_eq_of_lt small]
    rfl
  rw [if_neg short, if_neg short]
  by_cases basic : c.val.toNat < 0x10000
  · have small : c.val.toNat / 4096 < 0x10 := by omega
    rw [if_pos basic, if_pos basic, firstByte_eq three (byThree ▸ small) (by decide), byThree,
      Nat.mod_eq_of_lt small]
    rfl
  · have small : c.val.toNat / 262144 < 0x08 := by omega
    rw [if_neg basic, if_neg basic, firstByte_eq four (byFour ▸ small) (by decide), byFour,
      Nat.mod_eq_of_lt small]
    rfl

/-! ## Escapes -/

theorem hexDigit?_eq :
    ∀ byte : UInt8, hexDigit? byte = (hexValue? byte).map UInt32.ofNat :=
  forall_byte (by decide)

theorem readHex_cons
    {byte : UInt8}
    {value h : Nat}
    (isDigit : hexValue? byte = some value)
    (digits : Nat)
    (str : Bytes) :
    readHex (digits + 1) (UInt32.ofNat h) (byte :: str) =
      readHex digits (UInt32.ofNat (h * 16 + value)) str := by
  have shifted : (UInt32.ofNat h <<< 4) + UInt32.ofNat value =
      UInt32.ofNat (h * 16 + value) := by
    apply UInt32.toNat_inj.mp
    rw [UInt32.toNat_add, UInt32.toNat_shiftLeft, Nat.shiftLeft_eq]
    simp only [UInt32.toNat_ofNat', UInt32.reduceToNat, Nat.reduceMod, Nat.reducePow]
    omega
  simp only [readHex, peek_cons, Outcome.ok_bind, hexDigit?_eq, isDigit, Option.map_some,
    shifted, List.drop_succ_cons, List.drop_zero]

/-- Four digits are read as the number that they stand for. -/
theorem parseHex4_meaning
    {digits : Bytes}
    {h : Nat}
    (isNumber : Hex4 digits h)
    (str : Bytes) :
    parseHex4 (digits ++ str) = .ok (UInt32.ofNat h) := by
  cases isNumber with
  | @digits first second third fourth a b c d isFirst isSecond isThird isFourth =>
      have start := @readHex_cons first a 0 isFirst 3 (second :: third :: fourth :: str)
      rw [Nat.zero_mul, Nat.zero_add] at start
      calc parseHex4 (first :: second :: third :: fourth :: str)
          = readHex 3 (UInt32.ofNat a) (second :: third :: fourth :: str) := start
        _ = readHex 2 (UInt32.ofNat (a * 16 + b)) (third :: fourth :: str) :=
            readHex_cons isSecond _ _
        _ = readHex 1 (UInt32.ofNat ((a * 16 + b) * 16 + c)) (fourth :: str) :=
            readHex_cons isThird _ _
        _ = readHex 0 (UInt32.ofNat (((a * 16 + b) * 16 + c) * 16 + d)) str :=
            readHex_cons isFourth _ _

theorem Hex4.exists_four
    {digits : Bytes}
    {h : Nat}
    (isNumber : Hex4 digits h) :
    ∃ first second third fourth, digits = [first, second, third, fourth] := by
  cases isNumber
  exact ⟨_, _, _, _, rfl⟩

/-- The digits of an escape end no string and escape nothing. -/
theorem Hex4.plain
    {digits : Bytes}
    {h : Nat}
    (isNumber : Hex4 digits h) :
    ∀ byte ∈ digits, Unescaped byte ∧ byte ≠ 0 := by
  have checked (byte : UInt8) (value : Nat) (isDigit : hexValue? byte = some value) :
      Unescaped byte ∧ byte ≠ 0 := by
    apply hexDigit_plain
    rw [hexDigit?_eq, isDigit]
    exact Option.some_ne_none _
  cases isNumber with
  | digits isFirst isSecond isThird isFourth =>
      simp only [List.forall_mem_cons]
      exact ⟨checked _ _ isFirst, checked _ _ isSecond, checked _ _ isThird,
        checked _ _ isFourth, fun _ inside => absurd inside List.not_mem_nil⟩

/-- The bytes that the parser stores for a character: none for the character zero. -/
def stored (c : Char) : Bytes :=
  if c.toNat = 0 then [] else String.utf8EncodeChar c

/-- An escape with the number of a character. -/
theorem transcode_unicode
    {digits : Bytes}
    {c : Char}
    (isNumber : Hex4 digits c.toNat)
    (letter : UInt8)
    (text : Bytes) :
    ∃ last, transcode (letter :: (digits ++ text)) = .ok (stored c, last :: text) := by
  have read := parseHex4_meaning isNumber text
  have same : UInt32.ofNat c.toNat = c.val := UInt32.ofNat_toNat
  rw [same] at read
  obtain ⟨first, second, third, fourth, rfl⟩ := Hex4.exists_four isNumber
  refine ⟨fourth, ?_⟩
  simp only [transcode, List.cons_append, List.nil_append, List.drop_succ_cons,
    List.drop_zero] at read ⊢
  rw [read, Outcome.ok_bind]
  have notLow : ¬ (0xDC00 ≤ c.val ∧ c.val ≤ 0xDFFF) := by
    simp only [UInt32.le_iff_toNat_le, UInt32.reduceToNat]
    rcases c.valid with low | high <;> omega
  have notHigh : ¬ (0xD800 ≤ c.val ∧ c.val ≤ 0xDBFF) := by
    simp only [UInt32.le_iff_toNat_le, UInt32.reduceToNat]
    rcases c.valid with low | high <;> omega
  by_cases zero : c.toNat = 0
  · have isZero : c.val = 0 := UInt32.toNat_inj.mp zero
    rw [if_pos (.inr isZero), stored, if_pos zero]
    rfl
  · have nonzero : c.val ≠ 0 := fun same => zero (congrArg UInt32.toNat same)
    rw [if_neg (not_or.mpr ⟨notLow, nonzero⟩), if_neg notHigh, stored, if_neg zero,
      encodeUtf8_eq]
    rfl

/-- The bits of two halves, put together. -/
theorem pair_eq
    {high low : Nat}
    (highRange : 0xD800 ≤ high ∧ high ≤ 0xDBFF)
    (lowRange : 0xDC00 ≤ low ∧ low ≤ 0xDFFF) :
    (0x10000 : UInt32) + (((UInt32.ofNat high &&& 0x3FF) <<< 10) |||
      (UInt32.ofNat low &&& 0x3FF)) = UInt32.ofNat (pairValue high low) := by
  apply UInt32.toNat_inj.mp
  have masked (n : Nat) (small : n < 4294967296) :
      (UInt32.ofNat n &&& 0x3FF).toNat = n % 1024 := by
    have mask : (0x3FF : UInt32).toNat = 2 ^ 10 - 1 := rfl
    rw [UInt32.toNat_and, UInt32.toNat_ofNat_of_lt' small, mask,
      Nat.and_two_pow_sub_one_eq_mod]
  have upper : ((UInt32.ofNat high &&& 0x3FF) <<< 10).toNat = (high % 1024) <<< 10 := by
    rw [UInt32.toNat_shiftLeft, masked high (by omega)]
    simp only [UInt32.reduceToNat, Nat.shiftLeft_eq, Nat.reduceMod, Nat.reducePow]
    omega
  have lower : low % 1024 < 2 ^ 10 := Nat.mod_lt _ (by decide)
  have mark : (0x10000 : UInt32).toNat = 0x10000 := rfl
  have joined : pairValue high low = 0x10000 + (high % 1024 * 2 ^ 10 + low % 1024) := by
    unfold pairValue
    omega
  rw [UInt32.toNat_add, UInt32.toNat_or, upper, masked low (by omega),
    ← Nat.shiftLeft_add_eq_or_of_lt lower, Nat.shiftLeft_eq, mark, UInt32.toNat_ofNat', joined]

/-- Two escapes with the halves of a pair. -/
theorem transcode_pair
    {first second : Bytes}
    {high low : Nat}
    {c : Char}
    (isHigh : Hex4 first high)
    (isLow : Hex4 second low)
    (highRange : 0xD800 ≤ high ∧ high ≤ 0xDBFF)
    (lowRange : 0xDC00 ≤ low ∧ low ≤ 0xDFFF)
    (isPair : c.toNat = pairValue high low)
    (letter : UInt8)
    (text : Bytes) :
    ∃ last, transcode (letter :: (first ++ 0x5C :: 0x75 :: (second ++ text))) =
      .ok (stored c, last :: text) := by
  have readHigh := parseHex4_meaning isHigh (0x5C :: 0x75 :: (second ++ text))
  have readLow := parseHex4_meaning isLow text
  have nonzero : c.toNat ≠ 0 := by
    unfold pairValue at isPair
    omega
  have same : UInt32.ofNat (pairValue high low) = c.val := by
    rw [← isPair]
    exact UInt32.ofNat_toNat
  have joined := pair_eq highRange lowRange
  obtain ⟨a, b, c', d, rfl⟩ := Hex4.exists_four isHigh
  obtain ⟨e, f, g, h, rfl⟩ := Hex4.exists_four isLow
  refine ⟨h, ?_⟩
  simp only [transcode, List.cons_append, List.nil_append, List.drop_succ_cons,
    List.drop_zero, peek_cons] at readHigh readLow ⊢
  have highNat : (UInt32.ofNat high).toNat = high :=
    UInt32.toNat_ofNat_of_lt' (Nat.lt_of_le_of_lt highRange.2 (by decide))
  have lowNat : (UInt32.ofNat low).toNat = low :=
    UInt32.toNat_ofNat_of_lt' (Nat.lt_of_le_of_lt lowRange.2 (by decide))
  have notEnd : ¬ ((0xDC00 ≤ UInt32.ofNat high ∧ UInt32.ofNat high ≤ 0xDFFF) ∨
      UInt32.ofNat high = 0) := by
    simp only [UInt32.le_iff_toNat_le, ← UInt32.toNat_inj, UInt32.reduceToNat, highNat]
    omega
  have isFirst : 0xD800 ≤ UInt32.ofNat high ∧ UInt32.ofNat high ≤ 0xDBFF := by
    simp only [UInt32.le_iff_toNat_le, UInt32.reduceToNat, highNat]
    omega
  have isSecond : ¬ (UInt32.ofNat low < 0xDC00 ∨ 0xDFFF < UInt32.ofNat low) := by
    simp only [UInt32.lt_iff_toNat_lt, UInt32.reduceToNat, lowNat]
    omega
  have isBackslash : ¬ (0x5C : UInt8) ≠ backslash := by decide
  have isU : ¬ (0x75 : UInt8) ≠ UInt8.ofNat 'u'.toNat := by decide
  rw [readHigh, Outcome.ok_bind, if_neg notEnd, if_pos isFirst, Outcome.ok_bind,
    if_neg isBackslash, Outcome.ok_bind, if_neg isU, readLow, Outcome.ok_bind,
    if_neg isSecond, joined, same, encodeUtf8_eq, stored, if_neg nonzero]
  rfl

/-! ## Strings -/

/-- A byte of a character is the character itself, or from 128 on. -/
theorem mem_utf8EncodeChar
    {c : Char}
    {byte : UInt8}
    (present : byte ∈ String.utf8EncodeChar c) :
    (byte.toNat = c.toNat ∧ c.toNat < 0x80) ∨ 0x80 ≤ byte.toNat := by
  have same : c.val.toNat = c.toNat := rfl
  unfold String.utf8EncodeChar at present
  simp only [same] at present
  split_ifs at present
  · rw [List.mem_singleton.mp present, UInt8.toNat_ofNat']
    omega
  all_goals
    right
    simp only [List.mem_cons, List.not_mem_nil, or_false] at present
    rcases present with rfl | rfl | rfl | rfl <;> rw [UInt8.toNat_ofNat'] <;> omega

/-- A string in memory for characters. -/
theorem zero_not_mem_stored (c : Char) : (0 : UInt8) ∉ stored c := by
  intro present
  unfold stored at present
  split_ifs at present with zero
  · exact absurd present List.not_mem_nil
  · rcases mem_utf8EncodeChar present with same | large
    · exact zero same.1.symm
    · exact absurd large (by decide)

theorem length_stored_le (c : Char) : (stored c).length ≤ 4 := by
  unfold stored
  split_ifs
  · exact Nat.zero_le 4
  · rw [String.length_utf8EncodeChar]
    exact c.utf8Size_le_four

/-- A text for which `parse_string` allocates and writes some bytes. -/
structure ReadsBytes (text bytes : Bytes) : Prop where
  measured : ∀ {ptr : Bytes} {len : Nat}, measure ptr = .ok len →
    ∃ longer, len + bytes.length ≤ longer ∧ measure (text ++ ptr) = .ok longer
  copied : ∃ used, used ≤ text.length ∧ ∀ {size turns : Nat} {ptr out : Bytes},
    out.length + bytes.length ≤ size →
      copyString size (turns + used) (text ++ ptr) out =
        copyString size turns ptr (out ++ bytes)

theorem ReadsBytes.append
    {left right leftBytes rightBytes : Bytes}
    (readsLeft : ReadsBytes left leftBytes)
    (readsRight : ReadsBytes right rightBytes) :
    ReadsBytes (left ++ right) (leftBytes ++ rightBytes) where
  measured {ptr len} measured := by
    obtain ⟨middle, enough, measured⟩ := readsRight.measured measured
    obtain ⟨longer, more, measured⟩ := readsLeft.measured measured
    rw [List.append_assoc]
    exact ⟨longer, by rw [List.length_append]; omega, measured⟩
  copied := by
    obtain ⟨usedLeft, leftTurns, copiedLeft⟩ := readsLeft.copied
    obtain ⟨usedRight, rightTurns, copiedRight⟩ := readsRight.copied
    refine ⟨usedRight + usedLeft, by rw [List.length_append]; omega, ?_⟩
    intro size turns ptr out room
    rw [List.length_append] at room
    rw [List.append_assoc, ← Nat.add_assoc, copiedLeft (by omega),
      copiedRight (by rw [List.length_append]; omega), List.append_assoc]

theorem readsBytes_nil : ReadsBytes [] [] where
  measured {_ len} measured := ⟨len, Nat.le_refl len, measured⟩
  copied := ⟨0, Nat.le_refl 0, fun {_ _ _ out} _ => by rw [List.append_nil]; rfl⟩

theorem readsBytes_of_byte
    {first byte : UInt8}
    {others : Bytes}
    (reads : ReadsByte (first :: others) byte) :
    ReadsBytes (first :: others) [byte] where
  measured := reads.measured
  copied := ⟨1, Nat.succ_le_succ (Nat.zero_le _), reads.copied⟩

theorem readsBytes_plain
    {text : Bytes}
    (plain : ∀ byte ∈ text, CJSON.Plain byte) :
    ReadsBytes text text := by
  induction text with
  | nil => exact readsBytes_nil
  | cons byte text inductionHypothesis =>
      obtain ⟨first, others⟩ := List.forall_mem_cons.mp plain
      exact (readsBytes_of_byte (readsByte_plain first)).append (inductionHypothesis others)

/-- An escape for which the parser writes some bytes in one turn. -/
theorem readsBytes_unescape
    {code : UInt8}
    {codes bytes : Bytes}
    (measured : ∀ {ptr : Bytes} {len : Nat}, measure ptr = .ok len →
      ∃ longer, len + bytes.length ≤ longer ∧
        measure (backslash :: code :: (codes ++ ptr)) = .ok longer)
    (read : ∀ ptr, ∃ last, unescape (code :: (codes ++ ptr)) = .ok (bytes, last :: ptr)) :
    ReadsBytes (backslash :: code :: codes) bytes where
  measured := measured
  copied := by
    refine ⟨1, Nat.succ_le_succ (Nat.zero_le _), ?_⟩
    intro size turns ptr out room
    obtain ⟨last, read⟩ := read ptr
    have notEnd : ¬(backslash = quote ∨ backslash = 0) := by decide
    have stores : store size out bytes = .ok (out ++ bytes) := by
      rw [store, List.length_append, if_pos room]
    simp only [List.cons_append, copyString, peek_cons, Outcome.ok_bind, if_neg notEnd,
      ne_eq, not_true_eq_false, if_false, List.drop_succ_cons, List.drop_zero, read, stores]

/-- The letters behind a backslash stand for one byte. -/
theorem readsBytes_shorthand
    {letter : UInt8}
    {c : Char}
    (isLetter : shorthand? letter = some c) :
    ReadsBytes [backslash, letter] (stored c) := by
  unfold shorthand? at isLetter
  split_ifs at isLetter <;> subst letter <;> obtain rfl := Option.some.inj isLetter <;>
    exact readsBytes_of_byte (readsByte_letter fun _ => rfl)

theorem unescape_unicode (ptr : Bytes) : unescape (0x75 :: ptr) = transcode (0x75 :: ptr) := by
  simp [unescape]

theorem readsBytes_unicode
    {digits : Bytes}
    {c : Char}
    (isNumber : Hex4 digits c.toNat) :
    ReadsBytes (backslash :: 0x75 :: digits) (stored c) := by
  apply readsBytes_unescape
  · intro ptr len measured
    have behind := measure_backslash 0x75
      (measure_unescaped (Hex4.plain isNumber) measured)
    have few := length_stored_le c
    obtain ⟨_, _, _, _, rfl⟩ := Hex4.exists_four isNumber
    refine ⟨_, ?_, behind⟩
    simp only [List.length_cons, List.length_nil]
    omega
  · intro ptr
    rw [unescape_unicode]
    exact transcode_unicode isNumber 0x75 ptr

theorem readsBytes_pair
    {first second : Bytes}
    {high low : Nat}
    {c : Char}
    (isHigh : Hex4 first high)
    (isLow : Hex4 second low)
    (highRange : 0xD800 ≤ high ∧ high ≤ 0xDBFF)
    (lowRange : 0xDC00 ≤ low ∧ low ≤ 0xDFFF)
    (isPair : c.toNat = pairValue high low) :
    ReadsBytes (backslash :: 0x75 :: (first ++ 0x5C :: 0x75 :: second)) (stored c) := by
  apply readsBytes_unescape
  · intro ptr len measured
    have behind := measure_backslash 0x75 (measure_unescaped (Hex4.plain isHigh)
      (measure_backslash 0x75 (measure_unescaped (Hex4.plain isLow) measured)))
    have few := length_stored_le c
    have four : first.length = 4 := by
      obtain ⟨_, _, _, _, rfl⟩ := Hex4.exists_four isHigh
      rfl
    rw [List.append_assoc]
    exact ⟨_, by omega, behind⟩
  · intro ptr
    rw [unescape_unicode, List.append_assoc]
    exact transcode_pair isHigh isLow highRange lowRange isPair 0x75 ptr

/-- The bytes of a character that needs no escape. -/
theorem plain_utf8EncodeChar
    {c : Char}
    (visible : 0x20 ≤ c.toNat)
    (notQuote : c ≠ '"')
    (notBackslash : c ≠ '\\') :
    ∀ byte ∈ String.utf8EncodeChar c, CJSON.Plain byte := by
  intro byte present
  have differs (other : UInt8) (isOther : other.toNat < 0x80)
      (different : c ≠ Char.ofNat other.toNat) : byte ≠ other := by
    rintro rfl
    rcases mem_utf8EncodeChar present with ⟨same, -⟩ | large
    · rw [same, Char.ofNat_toNat] at different
      exact different rfl
    · omega
  refine ⟨?_, differs quote (by decide) notQuote, differs backslash (by decide) notBackslash⟩
  rw [UInt8.lt_iff_toNat_lt]
  change 31 < byte.toNat
  rcases mem_utf8EncodeChar present with ⟨same, -⟩ | large <;> omega

/-- What stands between the quotes of a string is read as its characters. -/
theorem readsBytes_characters
    {text : Bytes}
    {chars : List Char}
    (characters : JsonText.Characters text chars) :
    ReadsBytes text (chars.flatMap stored) := by
  induction characters with
  | nil => exact readsBytes_nil
  | @plain c text chars visible notQuote notBackslash others inductionHypothesis =>
      have nonzero : c.toNat ≠ 0 := by omega
      have isStored : stored c = String.utf8EncodeChar c := if_neg nonzero
      have plain := plain_utf8EncodeChar visible notQuote notBackslash
      rw [List.flatMap_cons, isStored]
      exact (readsBytes_plain plain).append inductionHypothesis
  | @escape letter c text chars isLetter others inductionHypothesis =>
      exact (readsBytes_shorthand isLetter).append inductionHypothesis
  | @unicode digits c text chars isNumber others inductionHypothesis =>
      exact (readsBytes_unicode isNumber).append inductionHypothesis
  | @pair first second high low c text chars isHigh isLow highRange lowRange isPair others
      inductionHypothesis =>
      have reads := (readsBytes_pair isHigh isLow highRange lowRange isPair).append
        inductionHypothesis
      rw [List.cons_append, List.cons_append, List.append_assoc] at reads
      exact reads

/-- The string of characters in memory. -/
def CString.ofChars (chars : List Char) : CString where
  val := chars.flatMap stored
  property := by
    intro present
    obtain ⟨c, -, inside⟩ := List.mem_flatMap.mp present
    exact zero_not_mem_stored c inside

/-- A string is read as its characters. -/
theorem parseString_meaning
    {text : Bytes}
    {chars : List Char}
    (characters : JsonText.Characters text chars)
    (new : CJSON)
    (rest : Bytes) :
    parseString new (quote :: (text ++ quote :: rest)) =
      .ok ({ new with valuestring := some (CString.ofChars chars), type := .string }, rest) := by
  have reads := readsBytes_characters characters
  obtain ⟨len, enough, measured⟩ := reads.measured (measure_quote rest)
  obtain ⟨used, few, copied⟩ := reads.copied
  obtain ⟨turns, isTurns⟩ : ∃ turns,
      (quote :: (text ++ quote :: rest)).length = turns + 1 + used := by
    refine ⟨(quote :: (text ++ quote :: rest)).length - 1 - used, ?_⟩
    simp only [List.length_cons, List.length_append]
    omega
  have copied := @copied (len + 1) (turns + 1) (quote :: rest) []
    (by rw [List.length_nil]; omega)
  have ends : copyString (len + 1) (turns + 1) (quote :: rest) (chars.flatMap stored) =
      .ok (chars.flatMap stored, quote :: rest) := rfl
  have terminated : store (len + 1) (chars.flatMap stored) [0] =
      .ok (chars.flatMap stored ++ [0]) := store_of_lt (by omega) 0
  have denoted : CString.ofBuffer (chars.flatMap stored ++ [0]) = CString.ofChars chars :=
    Subtype.ext (cString_append_zero (CString.ofChars chars).property [])
  rw [List.nil_append, ends] at copied
  rw [parseString, isTurns]
  simp only [peek_cons, Outcome.ok_bind, ne_eq, not_true_eq_false, if_false,
    List.drop_succ_cons, List.drop_zero, measured, copied, terminated, denoted, if_true]
  rfl

end ProtobufSandbox
