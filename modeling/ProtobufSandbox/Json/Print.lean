import Mathlib.Data.Int.Log
import Mathlib.Data.Rat.Floor
import ProtobufSandbox.Foundation.Decimal
import ProtobufSandbox.Json.Tree

/-!
# Printing a tree

`print_value` and the functions it calls. Every string a printer allocates is
the text without its terminator. Allocations succeed.
-/

namespace ProtobufSandbox

/-- `'\t'`. -/
abbrev tab : UInt8 := 0x09

/-- `' '`. -/
abbrev space : UInt8 := 0x20

/-- `'"'`. -/
abbrev quote : UInt8 := 0x22

/-- `','`. -/
abbrev comma : UInt8 := 0x2C

/-- `'-'`. -/
abbrev minus : UInt8 := 0x2D

/-- `'.'`. -/
abbrev point : UInt8 := 0x2E

/-- `'0'`. -/
abbrev zeroDigit : UInt8 := 0x30

/-- `':'`. -/
abbrev colon : UInt8 := 0x3A

/-- `'['`. -/
abbrev openBracket : UInt8 := 0x5B

/-- `'\\'`. -/
abbrev backslash : UInt8 := 0x5C

/-- `']'`. -/
abbrev closeBracket : UInt8 := 0x5D

/-- `'{'`. -/
abbrev openBrace : UInt8 := 0x7B

/-- `'}'`. -/
abbrev closeBrace : UInt8 := 0x7D

/-- `DBL_EPSILON`. -/
def dblEpsilon : Rat := 1 / 2 ^ 52

/-- The nearest natural number to a number that is not negative, the even one
of two. -/
def roundHalfEven (number : Rat) : Nat :=
  let below := number.floor.toNat
  let remainder := number - below
  if remainder < 1 / 2 ∨ (remainder = 1 / 2 ∧ below % 2 = 0) then below
  else below + 1

/-- Zeros in front of a numeral that has too few digits. -/
def padded (width value : Nat) : Bytes :=
  List.replicate (width - (Decimal.digits value).length) zeroDigit ++
    Decimal.digits value

/-- The sign that the formats below print. -/
def signOf (number : Rat) : Bytes :=
  if number < 0 then [minus] else []

/-- `"%d"`. -/
def formatInt (number : Int32) : Bytes :=
  if number.toInt < 0 then minus :: Decimal.digits number.toInt.natAbs
  else Decimal.digits number.toInt.natAbs

/-- `"%.0f"`. -/
def formatWhole (number : Rat) : Bytes :=
  signOf number ++ Decimal.digits (roundHalfEven |number|)

/-- `"%f"`: six digits after the point. -/
def formatFixed (number : Rat) : Bytes :=
  let millionths := roundHalfEven (|number| * 10 ^ 6)
  signOf number ++ Decimal.digits (millionths / 10 ^ 6) ++
    point :: padded 6 (millionths % 10 ^ 6)

/-- `"%e"`: one digit before the point, six digits after it. -/
def formatExponent (number : Rat) : Bytes :=
  let exponent := Int.log 10 |number|
  let rounded := roundHalfEven (|number| / 10 ^ exponent * 10 ^ 6)
  -- Rounding may carry into the next power of ten.
  let carried := decide (rounded = 10 ^ 7)
  let mantissa := if carried then 10 ^ 6 else rounded
  let exponent := if carried then exponent + 1 else exponent
  signOf number ++ Decimal.digits (mantissa / 10 ^ 6) ++
    point :: padded 6 (mantissa % 10 ^ 6) ++
    ascii ['e', if exponent < 0 then '-' else '+'] ++
    padded 2 exponent.natAbs

/-- The lower-case hexadecimal digit of a number below 16. -/
def lowerHex (value : UInt8) : UInt8 :=
  if value < 10 then 0x30 + value else 0x57 + value

/-- What one byte of a string is printed as. -/
def escape (token : UInt8) : Bytes :=
  if 31 < token ∧ token ≠ quote ∧ token ≠ backslash then [token]
  else if token = backslash then [backslash, backslash]
  else if token = quote then [backslash, quote]
  else if token = 0x08 then backslash :: ascii ['b']
  else if token = 0x0C then backslash :: ascii ['f']
  else if token = newline then backslash :: ascii ['n']
  else if token = carriageReturn then backslash :: ascii ['r']
  else if token = tab then backslash :: ascii ['t']
  else
    backslash :: ascii ['u', '0', '0'] ++
      [lowerHex (token / 16), lowerHex (token % 16)]

namespace CJSON

/-- `print_number` of a finite `double`. -/
def printNumber (item : CJSON) : Bytes :=
  let d := item.valuedouble
  if |(item.valueint.toInt : Rat) - d| ≤ dblEpsilon ∧
      d ≤ Int32.maxValue.toInt ∧ Int32.minValue.toInt ≤ d then
    formatInt item.valueint
  else if |(d.floor : Rat) - d| ≤ dblEpsilon ∧ |d| < 10 ^ 60 then formatWhole d
  else if |d| < 1 / 10 ^ 6 ∨ 10 ^ 9 < |d| then formatExponent d
  else formatFixed d

/-- `print_string_ptr`. -/
def printStringPtr : Option CString → Bytes
  | none => []
  | some str => quote :: (str.val.flatMap escape ++ [quote])

/-- The loop that composes an output: a separator after every entry but the
last. -/
def compose (separator : Bytes) : List Bytes → Bytes
  | [] => []
  | [entry] => entry
  | entry :: next :: entries =>
      entry ++ separator ++ compose separator (next :: entries)

/-- `print_array`, once its entries are printed. -/
def printArray (entries : List Bytes) (fmt : Bool) : Bytes :=
  openBracket ::
    (compose (comma :: if fmt then [space] else []) entries ++ [closeBracket])

/-- The line of one member, without what ends it. -/
def printMember (depth : Nat) (fmt : Bool) : Bytes × Bytes → Bytes
  | (name, entry) =>
      (if fmt then List.replicate depth tab else []) ++
        (name ++ colon :: ((if fmt then [tab] else []) ++ entry))

/-- `print_object`, once its names and entries are printed. -/
def printObject (members : List (Bytes × Bytes)) (depth : Nat) (fmt : Bool) :
    Bytes :=
  let lineEnd := if fmt then [newline] else []
  if members = [] then
    openBrace ::
      (lineEnd ++ (if fmt then List.replicate (depth - 1) tab else []) ++
        [closeBrace])
  else
    openBrace ::
      (lineEnd ++
        compose (comma :: lineEnd) (members.map (printMember (depth + 1) fmt)) ++
        lineEnd ++ (if fmt then List.replicate depth tab else []) ++
        [closeBrace])

mutual

/-- `print_value`; `number` is the text of a number. -/
def printValueWith (number : CJSON → Bytes) : CJSON → Nat → Bool → Bytes
  | ⟨child, type, valuestring, valueint, valuedouble, string⟩, depth, fmt =>
      match type with
      | .null => ascii ['n', 'u', 'l', 'l']
      | .false => ascii ['f', 'a', 'l', 's', 'e']
      | .true => ascii ['t', 'r', 'u', 'e']
      | .number =>
          number ⟨child, .number, valuestring, valueint, valuedouble, string⟩
      | .string => printStringPtr valuestring
      | .array => printArray (printEntriesWith number child (depth + 1) fmt) fmt
      | .object =>
          let names := child.map fun member => printStringPtr member.string
          printObject (names.zip (printEntriesWith number child (depth + 1) fmt))
            depth fmt

/-- The `entries` of an array or object. -/
def printEntriesWith (number : CJSON → Bytes) :
    List CJSON → Nat → Bool → List Bytes
  | [], _, _ => []
  | item :: items, depth, fmt =>
      item.printValueWith number depth fmt ::
        printEntriesWith number items depth fmt

end

/-- `print_value`, where all numbers are finite. -/
def printValue (item : CJSON) (depth : Nat) (fmt : Bool) : Bytes :=
  item.printValueWith printNumber depth fmt

/-- `cJSON_Print`. -/
def print (item : CJSON) : Bytes :=
  item.printValue 0 true

/-- `cJSON_PrintUnformatted`. -/
def printUnformatted (item : CJSON) : Bytes :=
  item.printValue 0 false

theorem printEntriesWith_eq_map
    (number : CJSON → Bytes)
    (items : List CJSON)
    (depth : Nat)
    (fmt : Bool) :
    printEntriesWith number items depth fmt =
      items.map fun item => item.printValueWith number depth fmt := by
  induction items with
  | nil => rfl
  | cons item items inductionHypothesis =>
      rw [List.map_cons, ← inductionHypothesis]
      rfl

section Printers

variable {item : CJSON} (number : CJSON → Bytes) (depth : Nat) (fmt : Bool)

theorem printValueWith_number (isNumber : item.type = .number) :
    item.printValueWith number depth fmt = number item := by
  cases item
  subst isNumber
  rfl

theorem printValueWith_array (array : item.type = .array) :
    item.printValueWith number depth fmt =
      printArray
        (item.child.map fun element => element.printValueWith number (depth + 1) fmt)
        fmt := by
  cases item
  subst array
  rw [← printEntriesWith_eq_map]
  rfl

theorem printValueWith_object (object : item.type = .object) :
    item.printValueWith number depth fmt =
      printObject
        (item.child.map fun member =>
          (printStringPtr member.string, member.printValueWith number (depth + 1) fmt))
        depth fmt := by
  cases item
  subst object
  rw [← List.zip_map', ← printEntriesWith_eq_map]
  rfl

end Printers

section Types

variable {item : CJSON} (depth : Nat) (fmt : Bool)

theorem printValue_null (null : item.type = .null) :
    item.printValue depth fmt = ascii ['n', 'u', 'l', 'l'] := by
  cases item
  subst null
  rfl

theorem printValue_false (isFalse : item.type = .false) :
    item.printValue depth fmt = ascii ['f', 'a', 'l', 's', 'e'] := by
  cases item
  subst isFalse
  rfl

theorem printValue_true (isTrue : item.type = .true) :
    item.printValue depth fmt = ascii ['t', 'r', 'u', 'e'] := by
  cases item
  subst isTrue
  rfl

theorem printValue_number (number : item.type = .number) :
    item.printValue depth fmt = item.printNumber :=
  printValueWith_number printNumber depth fmt number

theorem printValue_string (string : item.type = .string) :
    item.printValue depth fmt = printStringPtr item.valuestring := by
  cases item
  subst string
  rfl

theorem printValue_array (array : item.type = .array) :
    item.printValue depth fmt =
      printArray
        (item.child.map fun element => element.printValue (depth + 1) fmt)
        fmt :=
  printValueWith_array printNumber depth fmt array

theorem printValue_object (object : item.type = .object) :
    item.printValue depth fmt =
      printObject
        (item.child.map fun member =>
          (printStringPtr member.string, member.printValue (depth + 1) fmt))
        depth fmt :=
  printValueWith_object printNumber depth fmt object

end Types

/-- The composed text is the first entry, and each of the others behind a
separator. -/
theorem compose_cons
    (separator entry : Bytes)
    (entries : List Bytes) :
    compose separator (entry :: entries) =
      entry ++ entries.flatMap fun entry => separator ++ entry := by
  induction entries generalizing entry with
  | nil => exact (List.append_nil entry).symm
  | cons next entries inductionHypothesis =>
      rw [compose, inductionHypothesis, List.flatMap_cons, List.append_assoc,
        List.append_assoc]

/-- Every entry is part of the composed text. -/
theorem length_le_compose
    (separator : Bytes)
    {entry : Bytes}
    {entries : List Bytes}
    (present : entry ∈ entries) :
    entry.length ≤ (compose separator entries).length := by
  cases entries with
  | nil => cases present
  | cons first entries =>
      rw [compose_cons, List.length_append]
      rcases List.mem_cons.mp present with rfl | behind
      · exact Nat.le_add_right _ _
      · have part : separator ++ entry <:+:
            (entries.map fun entry => separator ++ entry).flatten :=
          List.infix_of_mem_flatten (List.mem_map_of_mem behind)
        have shorter := part.length_le
        rw [List.length_append] at shorter
        rw [List.flatMap_def]
        omega

/-- An element is shorter than its array. -/
theorem length_lt_printArray
    (text : CJSON → Bytes)
    (fmt : Bool)
    {item : CJSON}
    {items : List CJSON}
    (present : item ∈ items) :
    (text item).length < (printArray (items.map text) fmt).length := by
  have among : text item ∈ items.map text := List.mem_map_of_mem present
  have shorter :=
    length_le_compose (comma :: if fmt then [space] else []) among
  simp only [printArray, List.length_cons, List.length_append]
  omega

/-- The value of a member is shorter than its object. -/
theorem length_lt_printObject
    (name text : CJSON → Bytes)
    (depth : Nat)
    (fmt : Bool)
    {item : CJSON}
    {items : List CJSON}
    (present : item ∈ items) :
    (text item).length <
      (printObject (items.map fun item => (name item, text item))
        depth fmt).length := by
  have line : (text item).length ≤
      (printMember (depth + 1) fmt (name item, text item)).length := by
    simp only [printMember, List.length_cons, List.length_append]
    omega
  have among : printMember (depth + 1) fmt (name item, text item) ∈
      (items.map fun item => (name item, text item)).map
        (printMember (depth + 1) fmt) :=
    List.mem_map_of_mem (List.mem_map.mpr ⟨item, present, rfl⟩)
  have shorter :=
    length_le_compose (comma :: if fmt then [newline] else []) among
  have nonempty : (items.map fun item => (name item, text item)) ≠ [] := by
    rw [ne_eq, List.map_eq_nil_iff]
    exact List.ne_nil_of_mem present
  simp only [printObject, if_neg nonempty, List.length_cons,
    List.length_append]
  omega

/-- A number with the same value in both fields passes the test for integers. -/
theorem near_of_integer
    {item : CJSON}
    (integer : item.valuedouble = item.valueint.toInt) :
    |(item.valueint.toInt : Rat) - item.valuedouble| ≤ dblEpsilon ∧
      item.valuedouble ≤ Int32.maxValue.toInt ∧
      Int32.minValue.toInt ≤ item.valuedouble := by
  refine ⟨?_, ?_, ?_⟩
  · rw [integer, sub_self, abs_zero]
    decide +kernel
  · rw [integer]
    exact_mod_cast item.valueint.toInt_le
  · rw [integer]
    exact_mod_cast item.valueint.le_toInt

/-! ## Printed texts have no zero byte -/

theorem zero_not_mem_digits (value : Nat) :
    (0 : UInt8) ∉ Decimal.digits value := by
  intro present
  have digit := Decimal.isDigit_of_mem_digits present
  revert digit
  decide

theorem zero_not_mem_padded (width value : Nat) :
    (0 : UInt8) ∉ padded width value := by
  have noZero : (0 : UInt8) ∉ List.replicate
      (width - (Decimal.digits value).length) zeroDigit := by
    intro present
    exact absurd (List.eq_of_mem_replicate present) (by decide)
  exact List.not_mem_append noZero (zero_not_mem_digits value)

theorem zero_not_mem_printNumber (item : CJSON) :
    (0 : UInt8) ∉ item.printNumber := by
  have sign (number : Rat) : (0 : UInt8) ∉ signOf number := by
    unfold signOf
    split <;> decide
  have letter (exponent : Int) : (0 : UInt8) ∉
      ascii ['e', if exponent < 0 then '-' else '+'] := by
    split <;> decide
  simp only [printNumber]
  split_ifs
  · unfold formatInt
    split <;> simp [minus, zero_not_mem_digits]
  · simp [formatWhole, sign, zero_not_mem_digits]
  · simp [formatExponent, point, sign, letter, zero_not_mem_digits,
      zero_not_mem_padded]
  · simp [formatFixed, point, sign, zero_not_mem_digits, zero_not_mem_padded]

theorem zero_not_mem_escape :
    ∀ token : UInt8, token ≠ 0 → (0 : UInt8) ∉ escape token :=
  forall_byte (by decide)

theorem zero_not_mem_printStringPtr (str : Option CString) :
    (0 : UInt8) ∉ printStringPtr str := by
  cases str with
  | none => exact List.not_mem_nil
  | some str =>
      intro present
      rcases List.mem_cons.mp present with isQuote | inside
      · cases isQuote
      rcases List.mem_append.mp inside with escaped | isQuote
      · obtain ⟨token, tokenPresent, zero⟩ := List.mem_flatMap.mp escaped
        have nonzero : token ≠ 0 := fun equal => str.property (equal ▸ tokenPresent)
        exact zero_not_mem_escape token nonzero zero
      · exact absurd (List.mem_singleton.mp isQuote) (by decide)

theorem zero_not_mem_compose
    {separator : Bytes}
    {entries : List Bytes}
    (separatorNonzero : (0 : UInt8) ∉ separator)
    (nonzero : ∀ entry ∈ entries, (0 : UInt8) ∉ entry) :
    (0 : UInt8) ∉ compose separator entries := by
  cases entries with
  | nil => exact List.not_mem_nil
  | cons first entries =>
      rw [compose_cons]
      refine List.not_mem_append (nonzero first List.mem_cons_self) ?_
      intro present
      obtain ⟨entry, behind, zero⟩ := List.mem_flatMap.mp present
      exact List.not_mem_append separatorNonzero
        (nonzero entry (List.mem_cons_of_mem _ behind)) zero

theorem zero_not_mem_printMember
    {depth : Nat}
    {fmt : Bool}
    {name entry : Bytes}
    (nameNonzero : (0 : UInt8) ∉ name)
    (entryNonzero : (0 : UInt8) ∉ entry) :
    (0 : UInt8) ∉ printMember depth fmt (name, entry) := by
  cases fmt <;>
    simp [printMember, tab, colon, nameNonzero, entryNonzero]

/-- `strlen` of a printed text is its length. -/
theorem zero_not_mem_printValue
    (item : CJSON)
    (depth : Nat)
    (fmt : Bool) :
    (0 : UInt8) ∉ item.printValue depth fmt := by
  induction item using CJSON.induction generalizing depth with
  | node item inductionHypothesis =>
      cases type : item.type with
      | false =>
          rw [printValue_false depth fmt type]
          decide
      | true =>
          rw [printValue_true depth fmt type]
          decide
      | null =>
          rw [printValue_null depth fmt type]
          decide
      | number =>
          rw [printValue_number depth fmt type]
          exact zero_not_mem_printNumber item
      | string =>
          rw [printValue_string depth fmt type]
          exact zero_not_mem_printStringPtr item.valuestring
      | array =>
          have entries : ∀ entry ∈ item.child.map fun element =>
              element.printValue (depth + 1) fmt, (0 : UInt8) ∉ entry := by
            intro entry present
            obtain ⟨element, among, rfl⟩ := List.mem_map.mp present
            exact inductionHypothesis element among (depth + 1)
          have separator :
              (0 : UInt8) ∉ comma :: if fmt then [space] else [] := by
            cases fmt <;> decide
          rw [printValue_array depth fmt type]
          simp [printArray, openBracket, closeBracket,
            zero_not_mem_compose separator entries]
      | object =>
          have lines : ∀ line ∈ (item.child.map fun member =>
              (printStringPtr member.string,
                member.printValue (depth + 1) fmt)).map
                  (printMember (depth + 1) fmt), (0 : UInt8) ∉ line := by
            intro line present
            obtain ⟨pair, amongPairs, rfl⟩ := List.mem_map.mp present
            obtain ⟨member, among, rfl⟩ := List.mem_map.mp amongPairs
            exact zero_not_mem_printMember
              (zero_not_mem_printStringPtr member.string)
              (inductionHypothesis member among (depth + 1))
          have separator :
              (0 : UInt8) ∉ comma :: if fmt then [newline] else [] := by
            cases fmt <;> decide
          have composed := zero_not_mem_compose separator lines
          rw [printValue_object depth fmt type, printObject]
          cases fmt <;> split <;>
            simp_all [newline, tab, openBrace, closeBrace]

end CJSON
end ProtobufSandbox
