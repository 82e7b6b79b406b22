import Mathlib.Data.List.TakeWhile
import ProtobufSandbox.Foundation.Decimal

/-!
# Text streams

`std::stringstream` as its text, the place that is read next and its error flags, and
the extraction of an integer, which skips blanks, takes a sign and digits and leaves
what follows. `failed` is what `fail()` answers. The integers that are extracted are
those that the text begins with.
-/

namespace ProtobufSandbox

/-- A stream that is written at its end and read at a place. -/
structure StringStream where
  text : List UInt8
  position : Nat
  eof : Bool
  failed : Bool

namespace StringStream

open Decimal

/-- `'+'`. -/
def plusSign : UInt8 := 43

/-- `'-'`. -/
def minusSign : UInt8 := 45

/-! ## Operations -/

/-- A new stream. -/
def new : StringStream where
  text := []
  position := 0
  eof := false
  failed := false

/-- `clear()`. -/
def clear (stream : StringStream) : StringStream :=
  { stream with eof := false, failed := false }

/-- `str(text)`. -/
def setText (stream : StringStream) (text : List UInt8) : StringStream :=
  { stream with text := text, position := 0 }

/-- `good()`. -/
def good (stream : StringStream) : Bool :=
  !stream.eof && !stream.failed

/-- `operator<<` of a text. -/
def write (stream : StringStream) (bytes : List UInt8) : StringStream :=
  if stream.good then { stream with text := stream.text ++ bytes }
  else { stream with failed := true }

/-- `operator<<` of a `const char *`. A null pointer makes the stream bad. -/
def writePointer (stream : StringStream) : Option (List UInt8) → StringStream
  | none => { stream with failed := true }
  | some bytes => stream.write bytes

/-- `isspace`. -/
def isSpace (byte : UInt8) : Bool :=
  decide (byte = 32 ∨ 9 ≤ byte ∧ byte ≤ 13)

/-- An optional sign, and what follows it. -/
def readSign : List UInt8 → Bool × List UInt8
  | [] => (false, [])
  | byte :: rest =>
      if byte = minusSign then (true, rest)
      else if byte = plusSign then (false, rest)
      else (false, byte :: rest)

/-- The sign behind the blanks, and what follows it. -/
def readSigned (input : List UInt8) : Bool × List UInt8 :=
  readSign (input.dropWhile isSpace)

/-- The number that digits stand for behind a sign. -/
def signedValue (negative : Bool) (numeral : List UInt8) : Int :=
  if negative then -numeral.foldl extend 0 else numeral.foldl extend 0

/-- The integer that is extracted. There is none without a digit, or if the number is
out of range. -/
def scanInt (input : List UInt8) : Option Int32 :=
  let signed := readSigned input
  let numeral := signed.2.takeWhile isDigit
  let number := signedValue signed.1 numeral
  if numeral ≠ [] ∧ -2 ^ 31 ≤ number ∧ number < 2 ^ 31 then some (Int32.ofInt number)
  else none

/-- What the extraction leaves. -/
def scanRest (input : List UInt8) : List UInt8 :=
  (readSigned input).2.dropWhile isDigit

/-- `operator>>` of an `int`. The value is missing where the stream fails. -/
def readInt (stream : StringStream) : StringStream × Option Int32 :=
  if stream.good then
    let input := stream.text.drop stream.position
    let rest := scanRest input
    ({ text := stream.text
       position := stream.text.length - rest.length
       eof := rest.isEmpty
       failed := (scanInt input).isNone }, scanInt input)
  else ({ stream with failed := true }, none)

/-- A stream that has been cleared is as good as new. -/
theorem setText_clear (stream : StringStream) : stream.clear.setText [] = new := rfl

/-- What a new stream has as its text behind a pointer. -/
theorem text_writePointer_new (pointer : Option (List UInt8)) :
    (new.writePointer pointer).text = pointer.getD [] := by
  cases pointer <;> rfl

/-- No integer is extracted behind a null pointer, and behind a text the one that it
begins with. -/
theorem readInt_writePointer_new (pointer : Option (List UInt8)) :
    (new.writePointer pointer).readInt.2 = pointer.bind scanInt := by
  cases pointer <;> rfl

/-! ## The integer that a text begins with -/

/-- The text begins with the integer: blanks, an optional sign and all digits that
follow. -/
def BeginsWithInt (text : List UInt8) (number : Int32) : Prop :=
  ∃ blanks sign numeral rest, text = blanks ++ (sign ++ (numeral ++ rest)) ∧
    (∀ byte ∈ blanks, isSpace byte = true) ∧
    (sign = [] ∨ sign = [plusSign] ∨ sign = [minusSign]) ∧
    numeral ≠ [] ∧ (∀ byte ∈ numeral, isDigit byte = true) ∧
    (∀ byte ∈ rest.head?, isDigit byte = false) ∧
    number.toInt = signedValue (decide (sign = [minusSign])) numeral

/-- A digit is no blank and no sign. -/
theorem of_isDigit {byte : UInt8} (digit : isDigit byte = true) :
    isSpace byte = false ∧ byte ≠ minusSign ∧ byte ≠ plusSign := by
  obtain ⟨low, -⟩ := of_decide_eq_true digit
  refine ⟨decide_eq_false ?_, ?_, ?_⟩
  · rintro (rfl | ⟨-, blank⟩)
    · exact absurd low (by decide)
    · exact absurd (UInt8.le_trans low blank) (by decide)
  · rintro rfl
    exact absurd low (by decide)
  · rintro rfl
    exact absurd low (by decide)

/-- The sign in front of digits. -/
theorem readSign_append
    {sign numeral : List UInt8}
    (isSign : sign = [] ∨ sign = [plusSign] ∨ sign = [minusSign])
    (notEmpty : numeral ≠ [])
    (digits : ∀ byte ∈ numeral, isDigit byte = true)
    (rest : List UInt8) :
    readSign (sign ++ (numeral ++ rest)) =
      (decide (sign = [minusSign]), numeral ++ rest) := by
  rcases isSign with rfl | rfl | rfl
  · cases numeral with
    | nil => exact absurd rfl notEmpty
    | cons digit numeral =>
        obtain ⟨-, notMinus, notPlus⟩ := of_isDigit (digits digit List.mem_cons_self)
        rw [List.nil_append, List.cons_append, readSign, if_neg notMinus, if_neg notPlus]
        rfl
  · rfl
  · rfl

/-- The sign and the digits of a text that begins with an integer. -/
theorem readSigned_append
    {blanks sign numeral : List UInt8}
    (areBlanks : ∀ byte ∈ blanks, isSpace byte = true)
    (isSign : sign = [] ∨ sign = [plusSign] ∨ sign = [minusSign])
    (notEmpty : numeral ≠ [])
    (digits : ∀ byte ∈ numeral, isDigit byte = true)
    (rest : List UInt8) :
    readSigned (blanks ++ (sign ++ (numeral ++ rest))) =
      (decide (sign = [minusSign]), numeral ++ rest) := by
  have noBlank : (sign ++ (numeral ++ rest)).dropWhile isSpace =
      sign ++ (numeral ++ rest) := by
    rcases isSign with rfl | rfl | rfl
    · cases numeral with
      | nil => exact absurd rfl notEmpty
      | cons digit numeral =>
          apply List.dropWhile_cons_of_neg
          rw [(of_isDigit (digits digit List.mem_cons_self)).1]
          exact Bool.false_ne_true
    · rfl
    · rfl
  rw [readSigned, List.dropWhile_append_of_pos areBlanks, noBlank,
    readSign_append isSign notEmpty digits]

/-- The digits in front of a text that does not begin with one. -/
theorem takeWhile_digits
    {numeral rest : List UInt8}
    (digits : ∀ byte ∈ numeral, isDigit byte = true)
    (ends : ∀ byte ∈ rest.head?, isDigit byte = false) :
    (numeral ++ rest).takeWhile isDigit = numeral := by
  rw [List.takeWhile_append_of_pos digits]
  cases rest with
  | nil => exact List.append_nil numeral
  | cons byte rest =>
      rw [List.takeWhile_cons_of_neg, List.append_nil]
      rw [ends byte rfl]
      exact Bool.false_ne_true

/-- Every sign that is read splits its text. -/
theorem exists_sign (input : List UInt8) :
    ∃ sign, input = sign ++ (readSign input).2 ∧
      (sign = [] ∨ sign = [plusSign] ∨ sign = [minusSign]) ∧
      (readSign input).1 = decide (sign = [minusSign]) := by
  cases input with
  | nil => exact ⟨[], rfl, .inl rfl, rfl⟩
  | cons byte rest =>
      rw [readSign]
      split
      case isTrue minus =>
        subst minus
        exact ⟨[minusSign], rfl, .inr (.inr rfl), rfl⟩
      case isFalse =>
        split
        case isTrue plus =>
          subst plus
          exact ⟨[plusSign], rfl, .inr (.inl rfl), rfl⟩
        case isFalse => exact ⟨[], rfl, .inl rfl, rfl⟩

/-- The integer that is extracted is the one that the text begins with. -/
theorem scanInt_eq_some_iff {text : List UInt8} {number : Int32} :
    scanInt text = some number ↔ BeginsWithInt text number := by
  constructor
  · intro scanned
    rw [scanInt] at scanned
    obtain ⟨sign, split, isSign, negative⟩ := exists_sign (text.dropWhile isSpace)
    rw [← readSigned] at split negative
    split at scanned
    case isFalse => cases scanned
    case isTrue inRange =>
      cases scanned
      obtain ⟨notEmpty, low, high⟩ := inRange
      refine ⟨text.takeWhile isSpace, sign, (readSigned text).2.takeWhile isDigit,
        (readSigned text).2.dropWhile isDigit, ?_, ?_, isSign, notEmpty, ?_, ?_, ?_⟩
      · rw [List.takeWhile_append_dropWhile, ← split, List.takeWhile_append_dropWhile]
      · exact fun byte present => List.mem_takeWhile_imp present
      · exact fun byte present => List.mem_takeWhile_imp present
      · intro byte first
        have stops := List.head?_dropWhile_not isDigit (readSigned text).2
        rw [first] at stops
        exact stops
      · rw [Int32.toInt_ofInt_of_le low high, negative]
  · rintro ⟨blanks, sign, numeral, rest, rfl, areBlanks, isSign, notEmpty, digits, ends,
      value⟩
    have signed := readSigned_append areBlanks isSign notEmpty digits rest
    have low := Int32.le_toInt number
    have high := Int32.toInt_lt number
    rw [value] at low high
    rw [scanInt]
    simp only [signed, takeWhile_digits digits ends]
    rw [if_pos ⟨notEmpty, low, high⟩, ← value, Int32.ofInt_toInt]

end StringStream
end ProtobufSandbox
