import Mathlib.Algebra.Order.Floor.Defs
import ProtobufSandbox.Foundation.Outcome
import ProtobufSandbox.Json.Print

/-!
# Parsing a text

`parse_value` and the functions it calls. A pointer into the text is the list
of the bytes from there to the end of the allocated buffer, so that a read
behind the end is seen. The texts need not be terminated.
-/

namespace ProtobufSandbox

/-- How a parse can end without an item. -/
inductive ParseError where
  /-- The parser returns null, and `ep` is what is left of the text. -/
  | malformed (ep : Bytes)
  /-- A read behind the end of the buffer. -/
  | outOfBounds
  /-- A write behind the end of the string that `parse_string` allocates. -/
  | overflow
  /-- The bound on the recursion of the model is used up. -/
  | outOfFuel
  deriving DecidableEq

namespace CJSON

/-- `*value`. -/
def peek : Bytes → Except ParseError UInt8
  | [] => .error .outOfBounds
  | byte :: _ => .ok byte

/-- `!strncmp(value, literal, n)` for a literal of `n` bytes. -/
def startsWith : Bytes → Bytes → Except ParseError Bool
  | [], _ => .ok true
  | _ :: _, [] => .error .outOfBounds
  | expected :: literal, byte :: value =>
      if byte = expected then startsWith literal value else .ok false

/-- `skip`. -/
def skip : Bytes → Except ParseError Bytes
  | [] => .error .outOfBounds
  | byte :: value =>
      if byte ≠ 0 ∧ byte ≤ 32 then skip value else .ok (byte :: value)

/-- A byte that `skip` passes over. -/
def Skipped (byte : UInt8) : Prop :=
  byte ≠ 0 ∧ byte ≤ 32

instance (byte : UInt8) : Decidable (Skipped byte) :=
  inferInstanceAs (Decidable (_ ∧ _))

/-- A text that `skip` passes over. -/
def IsBlank (text : Bytes) : Prop :=
  ∀ byte ∈ text, Skipped byte

theorem skip_append
    {blanks : Bytes}
    (blank : IsBlank blanks)
    (value : Bytes) :
    skip (blanks ++ value) = skip value := by
  induction blanks with
  | nil => rfl
  | cons byte blanks inductionHypothesis =>
      obtain ⟨byteBlank, blank⟩ := List.forall_mem_cons.mp blank
      rw [List.cons_append, skip]
      exact (if_pos byteBlank).trans (inductionHypothesis blank)

theorem skip_cons
    {byte : UInt8}
    (visible : ¬ Skipped byte)
    (value : Bytes) :
    skip (byte :: value) = .ok (byte :: value) :=
  if_neg visible

/-! ## Numbers -/

/-- A run of digits, taken into a number, with the length of the run. -/
def readDigits {R : Type*} [Semiring R] (n : R) :
    Bytes → Except ParseError (R × Nat × Bytes)
  | [] => .error .outOfBounds
  | byte :: num =>
      if Decimal.isDigit byte then do
        let (n, count, num) ← readDigits (Decimal.extend n byte) num
        return (n, count + 1, num)
      else .ok (n, 0, byte :: num)

/-- The sign in front of a number. -/
def readSign (num : Bytes) : Except ParseError (Rat × Bytes) := do
  if (← peek num) = minus then return (-1, num.drop 1)
  return (1, num)

/-- The digits in front of the point. -/
def readWhole (num : Bytes) : Except ParseError (Rat × Bytes) := do
  let num := if (← peek num) = zeroDigit then num.drop 1 else num
  let byte ← peek num
  if zeroDigit < byte ∧ byte ≤ 57 then
    let (n, _, num) ← readDigits 0 num
    return (n, num)
  return (0, num)

/-- The digits behind the point, with their number. -/
def readFraction (n : Rat) (num : Bytes) :
    Except ParseError (Rat × Nat × Bytes) := do
  if (← peek num) = point then
    if Decimal.isDigit (← peek (num.drop 1)) then
      return ← readDigits n (num.drop 1)
  return (n, 0, num)

/-- The exponent of a number. `subscale` is an `int` there and has no bounds here, so that
the two are the same up to `INT_MAX`. -/
def readExponent (num : Bytes) : Except ParseError (Int × Bytes) := do
  let byte ← peek num
  if byte = UInt8.ofNat 'e'.toNat ∨ byte = UInt8.ofNat 'E'.toNat then
    let num := num.drop 1
    let sign ← peek num
    let num :=
      if sign = UInt8.ofNat '+'.toNat ∨ sign = minus then num.drop 1 else num
    let (subscale, _, num) ← readDigits (0 : Int) num
    return (if sign = minus then -subscale else subscale, num)
  return (0, num)

/-- `(int)n`. Where the standard leaves the value open it is `INT_MIN`, as the
conversion instruction gives it. -/
def toInt (n : Rat) : Int32 :=
  let truncated := if n < 0 then -⌊-n⌋ else ⌊n⌋
  if Int32.minValue.toInt ≤ truncated ∧ truncated ≤ Int32.maxValue.toInt then
    Int32.ofInt truncated
  else Int32.minValue

/-- `parse_number`. -/
def parseNumber (item : CJSON) (num : Bytes) :
    Except ParseError (CJSON × Bytes) := do
  let (sign, num) ← readSign num
  let (n, num) ← readWhole num
  let (n, scale, num) ← readFraction n num
  let (subscale, num) ← readExponent num
  let n := sign * n * 10 ^ (subscale - scale)
  return ({ item with valuedouble := n, valueint := toInt n, type := .number },
    num)

/-! ## Strings -/

/-- The number that a hexadecimal digit stands for. -/
def hexDigit? (byte : UInt8) : Option UInt32 :=
  if 0x30 ≤ byte ∧ byte ≤ 0x39 then some (byte - 0x30).toUInt32
  else if 0x41 ≤ byte ∧ byte ≤ 0x46 then some (10 + byte - 0x41).toUInt32
  else if 0x61 ≤ byte ∧ byte ≤ 0x66 then some (10 + byte - 0x61).toUInt32
  else none

/-- Hexadecimal digits taken into a number, or zero at another byte. -/
def readHex : Nat → UInt32 → Bytes → Except ParseError UInt32
  | 0, h, _ => .ok h
  | digits + 1, h, str => do
      match hexDigit? (← peek str) with
      | none => return 0
      | some digit => readHex digits ((h <<< 4) + digit) (str.drop 1)

/-- `parse_hex4`. -/
def parseHex4 (str : Bytes) : Except ParseError UInt32 :=
  readHex 4 0 str

/-- `firstByteMark`. -/
def firstByteMark (len : Nat) : UInt32 :=
  [0x00, 0x00, 0xC0, 0xE0, 0xF0, 0xF8, 0xFC].getD len 0

/-- The bytes of a character, written from the last one back: the number of
bytes still to be written in front, and the bits that go into them. -/
def writeBack (len : Nat) : Nat → UInt32 → Bytes → Bytes
  | 0, uc, bytes => (uc ||| firstByteMark len).toUInt8 :: bytes
  | before + 1, uc, bytes =>
      writeBack len before (uc >>> 6)
        (((uc ||| 0x80) &&& 0xBF).toUInt8 :: bytes)

/-- The UTF-8 encoding of a character. -/
def encodeUtf8 (uc : UInt32) : Bytes :=
  if uc < 0x80 then writeBack 1 0 uc []
  else if uc < 0x800 then writeBack 2 1 uc []
  else if uc < 0x10000 then writeBack 3 2 uc []
  else writeBack 4 3 uc []

/-- `case 'u'`: what is written, and where `ptr` stands after it. -/
def transcode (ptr : Bytes) : Except ParseError (Bytes × Bytes) := do
  let uc ← parseHex4 (ptr.drop 1)
  let ptr := ptr.drop 4
  if (0xDC00 ≤ uc ∧ uc ≤ 0xDFFF) ∨ uc = 0 then return ([], ptr)
  if 0xD800 ≤ uc ∧ uc ≤ 0xDBFF then
    if (← peek (ptr.drop 1)) ≠ backslash then return ([], ptr)
    if (← peek (ptr.drop 2)) ≠ UInt8.ofNat 'u'.toNat then return ([], ptr)
    let uc2 ← parseHex4 (ptr.drop 3)
    let ptr := ptr.drop 6
    if uc2 < 0xDC00 ∨ 0xDFFF < uc2 then return ([], ptr)
    let uc :=
      (0x10000 : UInt32) + (((uc &&& 0x3FF) <<< 10) ||| (uc2 &&& 0x3FF))
    return (encodeUtf8 uc, ptr)
  return (encodeUtf8 uc, ptr)

/-- The byte behind a backslash: what is written for it, and where `ptr` stands
after it. -/
def unescape (ptr : Bytes) : Except ParseError (Bytes × Bytes) := do
  let byte ← peek ptr
  if byte = UInt8.ofNat 'b'.toNat then return ([0x08], ptr)
  if byte = UInt8.ofNat 'f'.toNat then return ([0x0C], ptr)
  if byte = UInt8.ofNat 'n'.toNat then return ([newline], ptr)
  if byte = UInt8.ofNat 'r'.toNat then return ([carriageReturn], ptr)
  if byte = UInt8.ofNat 't'.toNat then return ([tab], ptr)
  if byte = UInt8.ofNat 'u'.toNat then return ← transcode ptr
  return ([byte], ptr)

/-- The first loop of `parse_string`: the length that it finds. -/
def measure : Bytes → Except ParseError Nat
  | [] => .error .outOfBounds
  | byte :: ptr =>
      if byte = quote ∨ byte = 0 then .ok 0
      else if byte = backslash then
        match ptr with
        | [] => .error .outOfBounds
        | _ :: ptr => (measure ptr).map Nat.succ
      else (measure ptr).map Nat.succ

/-- Write behind what a string of `size` bytes holds already. -/
def store (size : Nat) (out bytes : Bytes) : Except ParseError Bytes :=
  if (out ++ bytes).length ≤ size then .ok (out ++ bytes)
  else .error .overflow

/-- The second loop of `parse_string`: the string it has written when it ends,
and where `ptr` stands. -/
def copyString (size : Nat) :
    Nat → Bytes → Bytes → Except ParseError (Bytes × Bytes)
  | 0, _, _ => .error .outOfFuel
  | turns + 1, ptr, out => do
      let byte ← peek ptr
      if byte = quote ∨ byte = 0 then return (out, ptr)
      if byte ≠ backslash then
        return ← copyString size turns (ptr.drop 1) (← store size out [byte])
      let (bytes, ptr) ← unescape (ptr.drop 1)
      copyString size turns (ptr.drop 1) (← store size out bytes)

/-- `parse_string`. -/
def parseString (item : CJSON) (str : Bytes) :
    Except ParseError (CJSON × Bytes) := do
  if (← peek str) ≠ quote then throw (.malformed str)
  let len ← measure (str.drop 1)
  let (out, ptr) ← copyString (len + 1) str.length (str.drop 1) []
  let out ← store (len + 1) out [0]
  let ptr := if (← peek ptr) = quote then ptr.drop 1 else ptr
  return ({ item with
      valuestring := some (CString.ofBuffer out), type := .string },
    ptr)

/-! ## Arrays, objects and values -/

/-- The loop over the entries behind the first one. -/
def parseEntries (entry : Bytes → Except ParseError (CJSON × Bytes)) :
    Nat → Bytes → Except ParseError (List CJSON × Bytes)
  | 0, _ => .error .outOfFuel
  | turns + 1, value => do
      if (← peek value) ≠ comma then return ([], value)
      let (child, value) ← entry (value.drop 1)
      let (children, value) ← parseEntries entry turns value
      return (child :: children, value)

/-- The common body of `parse_array` and `parse_object`. -/
def parseContainer
    (opening closing : UInt8)
    (entry : Bytes → Except ParseError (CJSON × Bytes))
    (value : Bytes) :
    Except ParseError (List CJSON × Bytes) := do
  if (← peek value) ≠ opening then throw (.malformed value)
  let value ← skip (value.drop 1)
  if (← peek value) = closing then return ([], value.drop 1)
  let (child, value) ← entry value
  let (children, value) ← parseEntries entry value.length value
  if (← peek value) = closing then return (child :: children, value.drop 1)
  throw (.malformed value)

/-- An element of an array. -/
def parseElement
    (parse : CJSON → Bytes → Except ParseError (CJSON × Bytes))
    (value : Bytes) :
    Except ParseError (CJSON × Bytes) := do
  let (child, value) ← parse newItem (← skip value)
  return (child, ← skip value)

/-- A member of an object. -/
def parseMember
    (parse : CJSON → Bytes → Except ParseError (CJSON × Bytes))
    (value : Bytes) :
    Except ParseError (CJSON × Bytes) := do
  let (child, value) ← parseString newItem (← skip value)
  let value ← skip value
  let child := { child with string := child.valuestring, valuestring := none }
  if (← peek value) ≠ colon then throw (.malformed value)
  let (child, value) ← parse child (← skip (value.drop 1))
  return (child, ← skip value)

/-- `parse_array`. -/
def parseArray
    (parse : CJSON → Bytes → Except ParseError (CJSON × Bytes))
    (item : CJSON)
    (value : Bytes) :
    Except ParseError (CJSON × Bytes) := do
  let (child, value) ←
    parseContainer openBracket closeBracket (parseElement parse) value
  return ({ item with type := .array, child := child }, value)

/-- `parse_object`. -/
def parseObject
    (parse : CJSON → Bytes → Except ParseError (CJSON × Bytes))
    (item : CJSON)
    (value : Bytes) :
    Except ParseError (CJSON × Bytes) := do
  let (child, value) ←
    parseContainer openBrace closeBrace (parseMember parse) value
  return ({ item with type := .object, child := child }, value)

/-- `parse_value`, down to a depth of nesting. -/
def parseValue : Nat → CJSON → Bytes → Except ParseError (CJSON × Bytes)
  | 0, _, _ => .error .outOfFuel
  | depth + 1, item, value => do
      if ← startsWith (ascii ['n', 'u', 'l', 'l']) value then
        return ({ item with type := .null }, value.drop 4)
      if ← startsWith (ascii ['f', 'a', 'l', 's', 'e']) value then
        return ({ item with type := .false }, value.drop 5)
      if ← startsWith (ascii ['t', 'r', 'u', 'e']) value then
        return ({ item with type := .true, valueint := 1 }, value.drop 4)
      let byte ← peek value
      if byte = quote then return ← parseString item value
      if byte = minus ∨ Decimal.isDigit byte then
        return ← parseNumber item value
      if byte = openBracket then
        return ← parseArray (parseValue depth) item value
      if byte = openBrace then
        return ← parseObject (parseValue depth) item value
      throw (.malformed value)

/-- A comparison fails at the end of the text only. -/
theorem startsWith_meets
    {allowed : ParseError → Prop}
    (outOfBounds : allowed .outOfBounds)
    (literal value : Bytes) :
    Outcome.Meets allowed (fun _ => True) (startsWith literal value) := by
  induction literal generalizing value with
  | nil => exact trivial
  | cons expected literal inductionHypothesis =>
      cases value with
      | nil => exact outOfBounds
      | cons byte value =>
          rw [startsWith]
          exact Outcome.Meets.ite
            (fun _ => inductionHypothesis value) (fun _ => trivial)

/-- What is shown of a value is shown of each way to read it. -/
theorem parseValue_meets
    {allowed : ParseError → Prop}
    {post : CJSON × Bytes → Prop}
    {depth : Nat}
    {item : CJSON}
    {value : Bytes}
    (outOfBounds : allowed .outOfBounds)
    (malformed : allowed (.malformed value))
    (null : post ({ item with type := .null }, value.drop 4))
    (isFalse : post ({ item with type := .false }, value.drop 5))
    (isTrue : post ({ item with type := .true, valueint := 1 }, value.drop 4))
    (string : Outcome.Meets allowed post (parseString item value))
    (number : ∀ byte tail, value = byte :: tail →
      byte = minus ∨ Decimal.isDigit byte = true →
      Outcome.Meets allowed post (parseNumber item value))
    (array : Outcome.Meets allowed post (parseArray (parseValue depth) item value))
    (object :
      Outcome.Meets allowed post (parseObject (parseValue depth) item value)) :
    Outcome.Meets allowed post (parseValue (depth + 1) item value) := by
  have compared := startsWith_meets outOfBounds
  have peeked : Outcome.Meets allowed (fun byte => ∃ tail, value = byte :: tail)
      (peek value) := by
    cases value with
    | nil => exact outOfBounds
    | cons byte tail => exact ⟨tail, rfl⟩
  refine (compared _ value).bind fun _ _ => ?_
  refine Outcome.Meets.ite (fun _ => null) fun _ => ?_
  refine (compared _ value).bind fun _ _ => ?_
  refine Outcome.Meets.ite (fun _ => isFalse) fun _ => ?_
  refine (compared _ value).bind fun _ _ => ?_
  refine Outcome.Meets.ite (fun _ => isTrue) fun _ => ?_
  refine peeked.bind fun byte first => ?_
  obtain ⟨tail, first⟩ := first
  refine Outcome.Meets.ite (fun _ => string) fun _ => ?_
  refine Outcome.Meets.ite (fun starts => number byte tail first starts) fun _ => ?_
  refine Outcome.Meets.ite (fun _ => array) fun _ => ?_
  exact Outcome.Meets.ite (fun _ => object) (fun _ => malformed)

/-- `cJSON_ParseWithOpts`: the item and where the parse ended. The nesting of a
value is not deeper than its text is long. -/
def parseWithOpts (value : Bytes) (requireNullTerminated : Bool) :
    Except ParseError (CJSON × Bytes) := do
  let (c, ending) ← parseValue (value.length + 1) newItem (← skip value)
  if requireNullTerminated then
    let ending ← skip ending
    if (← peek ending) ≠ 0 then throw (.malformed ending)
    return (c, ending)
  return (c, ending)

/-- `cJSON_Parse`. -/
def parse (value : Bytes) : Except ParseError CJSON := do
  let (c, _) ← parseWithOpts value false
  return c

end CJSON
end ProtobufSandbox
