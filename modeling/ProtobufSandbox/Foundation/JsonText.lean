import Mathlib.Algebra.Order.Field.Power
import Mathlib.Algebra.Order.Field.Rat
import Mathlib.Data.List.Induction
import ProtobufSandbox.Foundation.Decimal

/-!
# JSON texts and what they mean

The grammar of JSON on the bytes of a text, each rule with the value that the text
stands for. Strings are sequences of Unicode characters, encoded as UTF-8 or escaped,
and numbers are exact. Halves of a surrogate pair stand for a character only together.
The grammar has numerals of every size; for a reader with bounded numbers only some are
allowed.
-/

namespace ProtobufSandbox
namespace JsonText

/-- What a text stands for. -/
inductive Value
  | null
  | bool (b : Bool)
  | number (n : Rat)
  | string (chars : List Char)
  | array (elements : List Value)
  | object (members : List (List Char × Value))

/-- Bytes that may stand between the parts of a text. -/
def Blank (text : List UInt8) : Prop :=
  ∀ byte ∈ text, byte = 0x20 ∨ byte = 0x09 ∨ byte = 0x0A ∨ byte = 0x0D

/-! ## Numbers -/

/-- A text of digits. -/
def Digits (text : List UInt8) : Prop :=
  ∀ byte ∈ text, Decimal.isDigit byte = true

/-- The number that digits stand for. -/
def valueOf (digits : List UInt8) : Nat :=
  digits.foldl Decimal.extend 0

inductive Sign : List UInt8 → Rat → Prop
  | plus : Sign [] 1
  | minus : Sign [0x2D] (-1)

/-- The digits in front of the point, without a leading zero. -/
inductive Whole : List UInt8 → Prop
  | zero : Whole [0x30]
  | digits
      {first : UInt8}
      {digits : List UInt8}
      (positive : 0x31 ≤ first ∧ first ≤ 0x39)
      (others : Digits digits) : Whole (first :: digits)

/-- The point and the digits behind it. -/
inductive Fraction : List UInt8 → List UInt8 → Prop
  | none : Fraction [] []
  | digits
      {digits : List UInt8}
      (some : digits ≠ [])
      (areDigits : Digits digits) : Fraction (0x2E :: digits) digits

inductive ExponentSign : List UInt8 → Int → Prop
  | none : ExponentSign [] 1
  | plus : ExponentSign [0x2B] 1
  | minus : ExponentSign [0x2D] (-1)

inductive Exponent : List UInt8 → Int → Prop
  | none : Exponent [] 0
  | digits
      {letter : UInt8}
      {sign digits : List UInt8}
      {factor : Int}
      (isLetter : letter = 0x65 ∨ letter = 0x45)
      (isSign : ExponentSign sign factor)
      (some : digits ≠ [])
      (areDigits : Digits digits) :
      Exponent (letter :: (sign ++ digits)) (factor * valueOf digits)

/-- Which numerals a text may hold, by the number of their digits and by the power of ten
at the last one. -/
abbrev Numerals := Nat → Int → Prop

/-- All numerals of the grammar. -/
def anyNumeral : Numerals :=
  fun _ _ => True

inductive Number (allowed : Numerals) : List UInt8 → Rat → Prop
  | parts
      {sign whole fraction digits exponent : List UInt8}
      {factor : Rat}
      {power : Int}
      (isSign : Sign sign factor)
      (isWhole : Whole whole)
      (isFraction : Fraction fraction digits)
      (isExponent : Exponent exponent power)
      (isAllowed : allowed (whole ++ digits).length (power - digits.length)) :
      Number allowed (sign ++ (whole ++ (fraction ++ exponent)))
        (factor * valueOf (whole ++ digits) * 10 ^ (power - digits.length))

/-! ### How large they are -/

theorem digits_of_whole
    {text : List UInt8}
    (isWhole : Whole text) :
    Digits text := by
  cases isWhole with
  | zero => exact fun byte present => List.mem_singleton.mp present ▸ rfl
  | digits positive others =>
      refine List.forall_mem_cons.mpr ⟨decide_eq_true ⟨?_, positive.2⟩, others⟩
      exact UInt8.le_trans (by decide) positive.1

theorem digits_of_fraction
    {text digits : List UInt8}
    (isFraction : Fraction text digits) :
    Digits digits := by
  cases isFraction with
  | none => exact fun byte present => absurd present List.not_mem_nil
  | digits some areDigits => exact areDigits

/-- Digits stand for less than the next power of ten. -/
theorem valueOf_lt
    {digits : List UInt8}
    (areDigits : Digits digits) :
    valueOf digits < 10 ^ digits.length := by
  induction digits using List.reverseRecOn with
  | nil => exact Nat.one_pos
  | append_singleton digits last inductionHypothesis =>
      obtain ⟨first, isLast⟩ := List.forall_mem_append.mp areDigits
      have shorter := inductionHypothesis first
      have small := Decimal.digitValue_le (isLast last List.mem_cons_self)
      have total : valueOf (digits ++ [last]) =
          valueOf digits * 10 + Decimal.digitValue last := by
        rw [valueOf, List.foldl_append]
        rfl
      rw [total, List.length_append, List.length_singleton, pow_succ]
      omega

/-- A number lies below the power of ten that no allowed numeral reaches. -/
theorem Number.abs_lt
    {allowed : Numerals}
    {text : List UInt8}
    {n : Rat}
    {bound : Int}
    (isNumber : Number allowed text n)
    (bounded : ∀ digits power, allowed digits power → digits + power ≤ bound) :
    |n| < 10 ^ bound := by
  cases isNumber with
  | @parts sign whole fraction digits exponent factor power isSign isWhole isFraction
      isExponent isAllowed =>
      have areDigits : Digits (whole ++ digits) :=
        List.forall_mem_append.mpr ⟨digits_of_whole isWhole, digits_of_fraction isFraction⟩
      have one : |factor| = 1 := by
        cases isSign with
        | plus => exact abs_one
        | minus => rw [abs_neg, abs_one]
      have scale : (0 : Rat) < 10 ^ (power - digits.length) := zpow_pos (by norm_num) _
      have below : ((valueOf (whole ++ digits) : Nat) : Rat) < 10 ^ (whole ++ digits).length :=
        mod_cast valueOf_lt areDigits
      calc |factor * valueOf (whole ++ digits) * 10 ^ (power - digits.length)|
          = valueOf (whole ++ digits) * 10 ^ (power - digits.length) := by
            rw [abs_mul, abs_mul, one, one_mul, Nat.abs_cast, abs_of_pos scale]
        _ < 10 ^ (whole ++ digits).length * 10 ^ (power - digits.length) :=
            mul_lt_mul_of_pos_right below scale
        _ = 10 ^ ((whole ++ digits).length + (power - digits.length)) := by
            rw [zpow_add₀ (by norm_num), zpow_natCast]
        _ ≤ 10 ^ bound :=
            zpow_le_zpow_right₀ (by norm_num) (bounded _ _ isAllowed)

/-! ## Strings -/

/-- The number that a hexadecimal digit stands for. -/
def hexValue? (byte : UInt8) : Option Nat :=
  if 0x30 ≤ byte ∧ byte ≤ 0x39 then some (byte.toNat - 0x30)
  else if 0x41 ≤ byte ∧ byte ≤ 0x46 then some (byte.toNat - 0x41 + 10)
  else if 0x61 ≤ byte ∧ byte ≤ 0x66 then some (byte.toNat - 0x61 + 10)
  else none

/-- Four hexadecimal digits and the number that they stand for. -/
inductive Hex4 : List UInt8 → Nat → Prop
  | digits
      {first second third fourth : UInt8}
      {a b c d : Nat}
      (isFirst : hexValue? first = some a)
      (isSecond : hexValue? second = some b)
      (isThird : hexValue? third = some c)
      (isFourth : hexValue? fourth = some d) :
      Hex4 [first, second, third, fourth] (((a * 16 + b) * 16 + c) * 16 + d)

/-- The character that a single byte behind a backslash stands for. -/
def shorthand? (byte : UInt8) : Option Char :=
  if byte = 0x22 then some '"'
  else if byte = 0x5C then some '\\'
  else if byte = 0x2F then some '/'
  else if byte = 0x62 then some (Char.ofNat 0x08)
  else if byte = 0x66 then some (Char.ofNat 0x0C)
  else if byte = 0x6E then some (Char.ofNat 0x0A)
  else if byte = 0x72 then some (Char.ofNat 0x0D)
  else if byte = 0x74 then some (Char.ofNat 0x09)
  else none

/-- The character of a surrogate pair. -/
def pairValue (high low : Nat) : Nat :=
  0x10000 + (high - 0xD800) * 0x400 + (low - 0xDC00)

/-- What stands between the quotes of a string. -/
inductive Characters : List UInt8 → List Char → Prop
  | nil : Characters [] []
  | plain
      {c : Char}
      {text : List UInt8}
      {chars : List Char}
      (visible : 0x20 ≤ c.toNat)
      (notQuote : c ≠ '"')
      (notBackslash : c ≠ '\\')
      (others : Characters text chars) :
      Characters (String.utf8EncodeChar c ++ text) (c :: chars)
  | escape
      {letter : UInt8}
      {c : Char}
      {text : List UInt8}
      {chars : List Char}
      (isLetter : shorthand? letter = some c)
      (others : Characters text chars) :
      Characters (0x5C :: letter :: text) (c :: chars)
  | unicode
      {digits : List UInt8}
      {c : Char}
      {text : List UInt8}
      {chars : List Char}
      (isNumber : Hex4 digits c.toNat)
      (others : Characters text chars) :
      Characters (0x5C :: 0x75 :: (digits ++ text)) (c :: chars)
  | pair
      {first second : List UInt8}
      {high low : Nat}
      {c : Char}
      {text : List UInt8}
      {chars : List Char}
      (isHigh : Hex4 first high)
      (isLow : Hex4 second low)
      (highRange : 0xD800 ≤ high ∧ high ≤ 0xDBFF)
      (lowRange : 0xDC00 ≤ low ∧ low ≤ 0xDFFF)
      (isPair : c.toNat = pairValue high low)
      (others : Characters text chars) :
      Characters (0x5C :: 0x75 :: (first ++ 0x5C :: 0x75 :: (second ++ text))) (c :: chars)

/-! ## Values -/

mutual

/-- A text without blanks around it, and the value that it stands for. -/
inductive Means (allowed : Numerals) : List UInt8 → Value → Prop
  | null : Means allowed [0x6E, 0x75, 0x6C, 0x6C] .null
  | isFalse : Means allowed [0x66, 0x61, 0x6C, 0x73, 0x65] (.bool false)
  | isTrue : Means allowed [0x74, 0x72, 0x75, 0x65] (.bool true)
  | number
      {text : List UInt8}
      {n : Rat}
      (isNumber : Number allowed text n) : Means allowed text (.number n)
  | string
      {text : List UInt8}
      {chars : List Char}
      (characters : Characters text chars) :
      Means allowed (0x22 :: (text ++ [0x22])) (.string chars)
  | emptyArray
      {blanks : List UInt8}
      (blank : Blank blanks) : Means allowed (0x5B :: (blanks ++ [0x5D])) (.array [])
  | array
      {text : List UInt8}
      {elements : List Value}
      (areElements : Elements allowed text elements) :
      Means allowed (0x5B :: (text ++ [0x5D])) (.array elements)
  | emptyObject
      {blanks : List UInt8}
      (blank : Blank blanks) : Means allowed (0x7B :: (blanks ++ [0x7D])) (.object [])
  | object
      {text : List UInt8}
      {members : List (List Char × Value)}
      (areMembers : Members allowed text members) :
      Means allowed (0x7B :: (text ++ [0x7D])) (.object members)

/-- The elements of an array, with the blanks around them. -/
inductive Elements (allowed : Numerals) : List UInt8 → List Value → Prop
  | last
      {before text behind : List UInt8}
      {element : Value}
      (blankBefore : Blank before)
      (means : Means allowed text element)
      (blankBehind : Blank behind) :
      Elements allowed (before ++ (text ++ behind)) [element]
  | more
      {before text behind others : List UInt8}
      {element : Value}
      {elements : List Value}
      (blankBefore : Blank before)
      (means : Means allowed text element)
      (blankBehind : Blank behind)
      (areElements : Elements allowed others elements) :
      Elements allowed (before ++ (text ++ (behind ++ 0x2C :: others))) (element :: elements)

/-- A member of an object, without the blanks around it. -/
inductive Member (allowed : Numerals) : List UInt8 → List Char × Value → Prop
  | named
      {name gap start text : List UInt8}
      {chars : List Char}
      {value : Value}
      (characters : Characters name chars)
      (blankGap : Blank gap)
      (blankStart : Blank start)
      (means : Means allowed text value) :
      Member allowed (0x22 :: (name ++ 0x22 :: (gap ++ 0x3A :: (start ++ text)))) (chars, value)

/-- The members of an object, with the blanks around them. -/
inductive Members (allowed : Numerals) : List UInt8 → List (List Char × Value) → Prop
  | last
      {before text behind : List UInt8}
      {member : List Char × Value}
      (blankBefore : Blank before)
      (isMember : Member allowed text member)
      (blankBehind : Blank behind) :
      Members allowed (before ++ (text ++ behind)) [member]
  | more
      {before text behind others : List UInt8}
      {member : List Char × Value}
      {members : List (List Char × Value)}
      (blankBefore : Blank before)
      (isMember : Member allowed text member)
      (blankBehind : Blank behind)
      (areMembers : Members allowed others members) :
      Members allowed (before ++ (text ++ (behind ++ 0x2C :: others))) (member :: members)

end

end JsonText
end ProtobufSandbox
