import Mathlib.Tactic.NormNum
import ProtobufSandbox.Foundation.Outcome
import ProtobufSandbox.Json.Parse

/-!
# Strings and numbers, printed and parsed

What the printer writes for a string or for an integer is read back as the same
string or integer. A string ends at its closing quote. A number ends where the
text goes on with a byte that no number contains.
-/

namespace ProtobufSandbox
namespace CJSON

@[simp] theorem peek_cons (byte : UInt8) (value : Bytes) :
    peek (byte :: value) = .ok byte := rfl

/-! ## Strings -/

/-- A byte that the printer leaves as it is. -/
def Plain (byte : UInt8) : Prop :=
  31 < byte ∧ byte ≠ quote ∧ byte ≠ backslash

instance (byte : UInt8) : Decidable (Plain byte) :=
  inferInstanceAs (Decidable (_ ∧ _ ∧ _))

/-- The digits that the printer writes are read as what they were. -/
theorem hexDigit?_lowerHex :
    ∀ value : UInt8, value < 16 →
      hexDigit? (lowerHex value) = some value.toUInt32 :=
  forall_byte (by decide)

theorem shift_halves :
    ∀ byte : UInt8,
      (((0 : UInt32) <<< 4 + (byte / 16).toUInt32) <<< 4) +
        (byte % 16).toUInt32 = byte.toUInt32 :=
  forall_byte (by decide)

theorem halves_lt :
    ∀ byte : UInt8, byte / 16 < 16 ∧ byte % 16 < 16 :=
  forall_byte (by decide)

/-- `parse_hex4` reads the number of a byte as `%04x` wrote it. -/
theorem parseHex4_lowerHex (byte : UInt8) (ptr : Bytes) :
    parseHex4
        (zeroDigit :: zeroDigit ::
          lowerHex (byte / 16) :: lowerHex (byte % 16) :: ptr) =
      .ok byte.toUInt32 := by
  have zero : hexDigit? zeroDigit = some 0 := rfl
  have high := hexDigit?_lowerHex _ (halves_lt byte).1
  have low := hexDigit?_lowerHex _ (halves_lt byte).2
  simp only [parseHex4, readHex, peek_cons, Outcome.ok_bind, zero, high, low,
    List.drop_succ_cons, List.drop_zero]
  exact congrArg Except.ok (shift_halves byte)

theorem encodeUtf8_of_lt :
    ∀ byte : UInt8, byte < 128 → encodeUtf8 byte.toUInt32 = [byte] :=
  forall_byte (by decide)

theorem not_surrogate :
    ∀ byte : UInt8, byte ≠ 0 →
      ¬((0xDC00 ≤ byte.toUInt32 ∧ byte.toUInt32 ≤ 0xDFFF) ∨
        byte.toUInt32 = 0) ∧
      ¬(0xD800 ≤ byte.toUInt32 ∧ byte.toUInt32 ≤ 0xDBFF) :=
  forall_byte (by decide)

/-- The escape with the number of a control byte is read as that byte. -/
theorem unescape_control
    {byte : UInt8}
    (nonzero : byte ≠ 0)
    (control : byte < 32)
    (ptr : Bytes) :
    unescape
        (UInt8.ofNat 'u'.toNat :: zeroDigit :: zeroDigit ::
          lowerHex (byte / 16) :: lowerHex (byte % 16) :: ptr) =
      .ok ([byte], lowerHex (byte % 16) :: ptr) := by
  have ascii : byte < 128 := UInt8.lt_trans control (by decide)
  have number := parseHex4_lowerHex byte ptr
  have ordinary := not_surrogate byte nonzero
  change transcode _ = _
  simp only [transcode, List.drop_succ_cons, List.drop_zero, number, Outcome.ok_bind,
    if_neg ordinary.1, if_neg ordinary.2, encodeUtf8_of_lt byte ascii]
  rfl

/-- A text that `parse_string` counts as at least one byte, and for which it
writes one byte in one turn. -/
structure ReadsByte (text : Bytes) (byte : UInt8) : Prop where
  measured : ∀ {ptr : Bytes} {len : Nat}, measure ptr = .ok len →
    ∃ longer, len < longer ∧ measure (text ++ ptr) = .ok longer
  copied : ∀ {size turns : Nat} {ptr out : Bytes}, out.length < size →
    copyString size (turns + 1) (text ++ ptr) out =
      copyString size turns ptr (out ++ [byte])

theorem store_of_lt
    {size : Nat}
    {out : Bytes}
    (room : out.length < size)
    (byte : UInt8) :
    store size out [byte] = .ok (out ++ [byte]) := by
  rw [store, if_pos]
  rw [List.length_append, List.length_singleton]
  exact room

theorem measure_quote (ptr : Bytes) : measure (quote :: ptr) = .ok 0 := by
  cases ptr <;> rfl

theorem measure_ordinary
    {byte : UInt8}
    (nonzero : byte ≠ 0)
    (notQuote : byte ≠ quote)
    (notBackslash : byte ≠ backslash)
    {ptr : Bytes}
    {len : Nat}
    (measured : measure ptr = .ok len) :
    measure (byte :: ptr) = .ok (len + 1) := by
  have notEnd : ¬(byte = quote ∨ byte = 0) := not_or.mpr ⟨notQuote, nonzero⟩
  cases ptr with
  | nil => cases measured
  | cons next ptr =>
      rw [measure, if_neg notEnd, if_neg notBackslash, measured]
      rfl

theorem measure_backslash
    (byte : UInt8)
    {ptr : Bytes}
    {len : Nat}
    (measured : measure ptr = .ok len) :
    measure (backslash :: byte :: ptr) = .ok (len + 1) := by
  rw [measure, if_neg (by decide), if_pos rfl, measured]
  rfl

theorem copyString_backslash
    {size turns : Nat}
    {code last byte : UInt8}
    {codes ptr out : Bytes}
    (room : out.length < size)
    (read : unescape (code :: codes) = .ok ([byte], last :: ptr)) :
    copyString size (turns + 1) (backslash :: code :: codes) out =
      copyString size turns ptr (out ++ [byte]) := by
  have notEnd : ¬(backslash = quote ∨ backslash = 0) := by decide
  simp only [copyString, peek_cons, Outcome.ok_bind, if_neg notEnd, ne_eq,
    not_true_eq_false, if_false, List.drop_succ_cons, List.drop_zero, read,
    store_of_lt room]

theorem Plain.ne_zero
    {byte : UInt8}
    (plain : Plain byte) :
    byte ≠ 0 := by
  rintro rfl
  revert plain
  decide

theorem readsByte_plain
    {byte : UInt8}
    (plain : Plain byte) :
    ReadsByte [byte] byte where
  measured measured :=
    ⟨_, Nat.lt_succ_self _,
      measure_ordinary plain.ne_zero plain.2.1 plain.2.2 measured⟩
  copied room := by
    have notEnd : ¬(byte = quote ∨ byte = 0) :=
      not_or.mpr ⟨plain.2.1, plain.ne_zero⟩
    simp only [List.singleton_append, copyString, peek_cons, Outcome.ok_bind,
      if_neg notEnd, if_pos plain.2.2, List.drop_succ_cons, List.drop_zero,
      store_of_lt room]

/-- The escapes of two bytes. -/
theorem readsByte_letter
    {code byte : UInt8}
    (read : ∀ ptr, unescape (code :: ptr) = .ok ([byte], code :: ptr)) :
    ReadsByte [backslash, code] byte where
  measured measured :=
    ⟨_, Nat.lt_succ_self _, measure_backslash code measured⟩
  copied room := copyString_backslash room (read _)

theorem lowerHex_ordinary :
    ∀ value : UInt8, value < 16 →
      lowerHex value ≠ 0 ∧ lowerHex value ≠ quote ∧ lowerHex value ≠ backslash :=
  forall_byte (by decide)

/-- The escapes of six bytes. -/
theorem readsByte_control
    {byte : UInt8}
    (nonzero : byte ≠ 0)
    (control : byte < 32) :
    ReadsByte
      [backslash, UInt8.ofNat 'u'.toNat, zeroDigit, zeroDigit,
        lowerHex (byte / 16), lowerHex (byte % 16)]
      byte where
  measured {ptr len} measured := by
    obtain ⟨highNonzero, highNotQuote, highNotBackslash⟩ :=
      lowerHex_ordinary _ (halves_lt byte).1
    obtain ⟨lowNonzero, lowNotQuote, lowNotBackslash⟩ :=
      lowerHex_ordinary _ (halves_lt byte).2
    refine ⟨len + 5, by omega, ?_⟩
    apply measure_backslash
    apply measure_ordinary (by decide) (by decide) (by decide)
    apply measure_ordinary (by decide) (by decide) (by decide)
    apply measure_ordinary highNonzero highNotQuote highNotBackslash
    exact measure_ordinary lowNonzero lowNotQuote lowNotBackslash measured
  copied room := copyString_backslash room (unescape_control nonzero control _)

/-- What the printer writes for a byte is read as that byte. -/
theorem readsByte_escape
    {byte : UInt8}
    (nonzero : byte ≠ 0) :
    ReadsByte (escape byte) byte := by
  unfold escape
  split_ifs with plain isBackslash isQuote isBackspace isFeed isNewline isReturn
    isTab
  · exact readsByte_plain plain
  iterate 7
    · subst byte
      exact readsByte_letter fun _ => rfl
  -- What is left are the control bytes without a letter.
  have control : byte < 32 := by
    have low : ¬ 31 < byte := fun high => plain ⟨high, isQuote, isBackslash⟩
    rw [UInt8.lt_iff_toNat_lt] at low ⊢
    simp only [UInt8.reduceToNat] at low ⊢
    omega
  exact readsByte_control nonzero control

theorem length_le_flatMap_escape (text : Bytes) :
    text.length ≤ (text.flatMap escape).length := by
  have one : ∀ byte : UInt8, 1 ≤ (escape byte).length :=
    forall_byte (by decide)
  induction text with
  | nil => exact Nat.le_refl 0
  | cons byte text inductionHypothesis =>
      rw [List.flatMap_cons, List.length_append, List.length_cons]
      have := one byte
      omega

/-- The first loop allocates enough for the string that was printed. -/
theorem measure_flatMap_escape
    {text : Bytes}
    (nonzero : (0 : UInt8) ∉ text)
    (rest : Bytes) :
    ∃ len, text.length ≤ len ∧
      measure (text.flatMap escape ++ quote :: rest) = .ok len := by
  induction text with
  | nil => exact ⟨0, Nat.le_refl 0, measure_quote rest⟩
  | cons byte text inductionHypothesis =>
      obtain ⟨byteNonzero, textNonzero⟩ := not_or.mp (List.mem_cons.not.mp nonzero)
      obtain ⟨len, enough, measured⟩ := inductionHypothesis textNonzero
      obtain ⟨longer, less, measuredMore⟩ :=
        (readsByte_escape (Ne.symm byteNonzero)).measured measured
      refine ⟨longer, by rw [List.length_cons]; omega, ?_⟩
      rw [List.flatMap_cons, List.append_assoc]
      exact measuredMore

/-- The second loop writes the string that was printed. -/
theorem copyString_flatMap_escape
    {text : Bytes}
    (nonzero : (0 : UInt8) ∉ text)
    {size turns : Nat}
    {out : Bytes}
    (enough : text.length < turns)
    (room : out.length + text.length ≤ size)
    (rest : Bytes) :
    copyString size turns (text.flatMap escape ++ quote :: rest) out =
      .ok (out ++ text, quote :: rest) := by
  induction text generalizing turns out with
  | nil =>
      cases turns with
      | zero => cases enough
      | succ turns =>
          rw [List.append_nil]
          rfl
  | cons byte text inductionHypothesis =>
      obtain ⟨byteNonzero, textNonzero⟩ := not_or.mp (List.mem_cons.not.mp nonzero)
      rw [List.length_cons] at enough room
      cases turns with
      | zero => cases enough
      | succ turns =>
          have byteRoom : out.length < size := by omega
          rw [List.flatMap_cons, List.append_assoc,
            (readsByte_escape (Ne.symm byteNonzero)).copied byteRoom,
            inductionHypothesis textNonzero (by omega)
              (by rw [List.length_append, List.length_singleton]; omega),
            List.append_assoc, List.singleton_append]

/-- A printed string is read as that string, and what follows it is left. -/
theorem parseString_printStringPtr
    (item : CJSON)
    (str : CString)
    (rest : Bytes) :
    parseString item (printStringPtr (some str) ++ rest) =
      .ok ({ item with valuestring := some str, type := .string }, rest) := by
  obtain ⟨len, enough, measured⟩ := measure_flatMap_escape str.property rest
  have text : printStringPtr (some str) ++ rest =
      quote :: (str.val.flatMap escape ++ quote :: rest) := by
    simp [printStringPtr]
  have turns : str.val.length <
      (quote :: (str.val.flatMap escape ++ quote :: rest)).length := by
    have := length_le_flatMap_escape str.val
    simp only [List.length_cons, List.length_append]
    omega
  have room : ([] : Bytes).length + str.val.length ≤ len + 1 := by
    rw [List.length_nil]
    omega
  have copied := copyString_flatMap_escape str.property turns room rest
  have terminated : store (len + 1) str.val [0] = .ok (str.val ++ [0]) :=
    store_of_lt (by omega) 0
  have denoted : CString.ofBuffer (str.val ++ [0]) = str :=
    Subtype.ext (cString_append_zero str.property [])
  rw [text]
  simp only [parseString, peek_cons, Outcome.ok_bind, ne_eq, not_true_eq_false,
    if_false, List.drop_succ_cons, List.drop_zero, measured, copied,
    List.nil_append, terminated, denoted, if_true]
  rfl

/-! ## Numbers -/

/-- A text that goes on with a byte at which every number ends. -/
def Delimited : Bytes → Prop
  | [] => False
  | byte :: _ =>
      Decimal.isDigit byte = false ∧ byte ≠ point ∧
        byte ≠ UInt8.ofNat 'e'.toNat ∧ byte ≠ UInt8.ofNat 'E'.toNat

theorem readDigits_append
    {R : Type}
    [Semiring R]
    (n : R)
    {digits : Bytes}
    (areDigits : ∀ byte ∈ digits, Decimal.isDigit byte = true)
    {byte : UInt8}
    (notDigit : Decimal.isDigit byte = false)
    (rest : Bytes) :
    readDigits n (digits ++ byte :: rest) =
      .ok (digits.foldl Decimal.extend n, digits.length, byte :: rest) := by
  induction digits generalizing n with
  | nil =>
      rw [List.nil_append, readDigits, notDigit]
      rfl
  | cons digit digits inductionHypothesis =>
      obtain ⟨isDigit, areDigits⟩ := List.forall_mem_cons.mp areDigits
      rw [List.cons_append, readDigits, if_pos isDigit,
        inductionHypothesis _ areDigits]
      rfl

/-- The numeral of a number is read as that number. -/
theorem readWhole_digits
    (value : Nat)
    {byte : UInt8}
    (notDigit : Decimal.isDigit byte = false)
    (rest : Bytes) :
    readWhole (Decimal.digits value ++ byte :: rest) =
      .ok ((value : Rat), byte :: rest) := by
  rcases Nat.eq_zero_or_pos value with rfl | positive
  · have notLater : ¬(zeroDigit < byte ∧ byte ≤ 57) := by
      intro range
      have isDigit : Decimal.isDigit byte = true :=
        decide_eq_true ⟨UInt8.le_of_lt range.1, range.2⟩
      rw [notDigit] at isDigit
      cases isDigit
    have numeral : Decimal.digits 0 = [zeroDigit] := rfl
    simp only [numeral, List.singleton_append, readWhole, peek_cons, Outcome.ok_bind,
      if_true, List.drop_succ_cons, List.drop_zero, if_neg notLater]
    rfl
  · obtain ⟨first, tail, numeral, range⟩ :=
      Decimal.exists_digits_eq_cons_of_pos positive
    have later : zeroDigit < first ∧ first ≤ 57 := by
      refine ⟨?_, range.2⟩
      exact UInt8.lt_of_lt_of_le (by decide) range.1
    have notZero : first ≠ zeroDigit := (UInt8.ne_of_lt later.1).symm
    have areDigits : ∀ byte ∈ Decimal.digits value,
        Decimal.isDigit byte = true :=
      fun byte present => Decimal.isDigit_of_mem_digits present
    have read := readDigits_append (0 : Rat) areDigits notDigit rest
    rw [Decimal.foldl_extend_digits value] at read
    rw [numeral, List.cons_append] at read ⊢
    simp only [readWhole, peek_cons, Outcome.ok_bind, if_neg notZero, if_pos later, read]
    rfl

/-- A number that fits is converted as it is. -/
theorem toInt_intCast (number : Int32) : toInt (number.toInt : Rat) = number := by
  have truncated :
      (if (number.toInt : Rat) < 0 then -⌊-(number.toInt : Rat)⌋
        else ⌊(number.toInt : Rat)⌋) = number.toInt := by
    rw [← Int.cast_neg, Int.floor_intCast, Int.floor_intCast, neg_neg, ite_self]
  have fits : Int32.minValue.toInt ≤ number.toInt ∧
      number.toInt ≤ Int32.maxValue.toInt :=
    ⟨number.le_toInt, number.toInt_le⟩
  simp only [toInt, truncated, if_pos fits, Int32.ofInt_toInt]

/-- The sign and the digits of an integer. -/
theorem readSign_formatInt (number : Int32) (rest : Bytes) :
    ∃ sign : Rat, sign * number.toInt.natAbs = number.toInt ∧
      readSign (formatInt number ++ rest) =
        .ok (sign, Decimal.digits number.toInt.natAbs ++ rest) := by
  unfold formatInt
  split
  · next negative =>
      refine ⟨-1, ?_, rfl⟩
      rw [neg_one_mul, Nat.cast_natAbs, abs_of_neg negative, Int.cast_neg,
        neg_neg]
  · next notNegative =>
      refine ⟨1, ?_, ?_⟩
      · rw [one_mul, Nat.cast_natAbs, abs_of_nonneg (not_lt.mp notNegative)]
      · obtain ⟨first, tail, numeral, isDigit⟩ :=
          Decimal.exists_digits_eq_cons number.toInt.natAbs
        have notMinus : first ≠ minus := by
          rintro rfl
          revert isDigit
          decide
        rw [numeral, List.cons_append, readSign, peek_cons, Outcome.ok_bind,
          if_neg notMinus]
        rfl

/-- A number ends where neither a point nor an exponent follows. -/
theorem readFraction_of_ne
    {byte : UInt8}
    (notPoint : byte ≠ point)
    (n : Rat)
    (rest : Bytes) :
    readFraction n (byte :: rest) = .ok (n, 0, byte :: rest) := by
  rw [readFraction, peek_cons, Outcome.ok_bind, if_neg notPoint]
  rfl

theorem readExponent_of_ne
    {byte : UInt8}
    (notLower : byte ≠ UInt8.ofNat 'e'.toNat)
    (notUpper : byte ≠ UInt8.ofNat 'E'.toNat)
    (rest : Bytes) :
    readExponent (byte :: rest) = .ok (0, byte :: rest) := by
  rw [readExponent, peek_cons, Outcome.ok_bind,
    if_neg (not_or.mpr ⟨notLower, notUpper⟩)]
  rfl

/-- A printed integer is read as that integer. -/
theorem parseNumber_formatInt
    (item : CJSON)
    (number : Int32)
    {rest : Bytes}
    (delimited : Delimited rest) :
    parseNumber item (formatInt number ++ rest) =
      .ok ({ item with
          valuedouble := number.toInt, valueint := number, type := .number },
        rest) := by
  obtain ⟨sign, product, readSign⟩ := readSign_formatInt number rest
  cases rest with
  | nil => exact delimited.elim
  | cons byte rest =>
      obtain ⟨notDigit, notPoint, notLower, notUpper⟩ := delimited
      have readWhole := readWhole_digits number.toInt.natAbs notDigit rest
      have value : sign * number.toInt.natAbs * 10 ^ ((0 : Int) - (0 : Nat)) =
          (number.toInt : Rat) := by
        rw [Nat.cast_zero, sub_zero, zpow_zero, mul_one, product]
      simp only [parseNumber, readSign, readWhole, Outcome.ok_bind,
        readFraction_of_ne notPoint, readExponent_of_ne notLower notUpper,
        value, toInt_intCast]
      rfl

/-! ## The first byte of a value -/

theorem startsWith_of_ne
    {byte expected : UInt8}
    (different : byte ≠ expected)
    (literal value : Bytes) :
    startsWith (expected :: literal) (byte :: value) = .ok false :=
  if_neg different

/-- A text that starts with a sign or a digit is parsed as a number. -/
theorem parseValue_number
    {first : UInt8}
    (numeric : first = minus ∨ Decimal.isDigit first = true)
    (depth : Nat)
    (new : CJSON)
    (tail : Bytes) :
    parseValue (depth + 1) new (first :: tail) =
      parseNumber new (first :: tail) := by
  have checked : ∀ byte : UInt8,
      byte = minus ∨ Decimal.isDigit byte = true →
        byte ≠ UInt8.ofNat 'n'.toNat ∧ byte ≠ UInt8.ofNat 'f'.toNat ∧
        byte ≠ UInt8.ofNat 't'.toNat ∧ byte ≠ quote :=
    forall_byte (by decide)
  obtain ⟨notNull, notFalse, notTrue, notQuote⟩ := checked first numeric
  simp only [parseValue, ascii, List.map_cons, startsWith_of_ne notNull,
    startsWith_of_ne notFalse, startsWith_of_ne notTrue, Outcome.ok_bind, peek_cons,
    if_neg notQuote, if_pos numeric]
  simp

/-- A text that starts with a zero byte, or with a byte from 128 on, is no
value. -/
theorem parseValue_malformed
    {first : UInt8}
    (outside : first = 0 ∨ 128 ≤ first)
    (depth : Nat)
    (new : CJSON)
    (tail : Bytes) :
    parseValue (depth + 1) new (first :: tail) =
      .error (.malformed (first :: tail)) := by
  have checked : ∀ byte : UInt8,
      byte = 0 ∨ 128 ≤ byte →
        (byte ≠ UInt8.ofNat 'n'.toNat ∧ byte ≠ UInt8.ofNat 'f'.toNat ∧
          byte ≠ UInt8.ofNat 't'.toNat ∧ byte ≠ quote) ∧
        ¬ (byte = minus ∨ Decimal.isDigit byte = true) ∧
        byte ≠ openBracket ∧ byte ≠ openBrace :=
    forall_byte (by decide)
  obtain ⟨⟨notNull, notFalse, notTrue, notQuote⟩, notNumber, notArray, notObject⟩ :=
    checked first outside
  simp only [parseValue, ascii, List.map_cons, startsWith_of_ne notNull,
    startsWith_of_ne notFalse, startsWith_of_ne notTrue, Outcome.ok_bind, peek_cons,
    if_neg notQuote, if_neg notNumber, if_neg notArray, if_neg notObject]
  simp
  rfl

end CJSON
end ProtobufSandbox
