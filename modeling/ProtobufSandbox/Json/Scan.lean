import ProtobufSandbox.Foundation.Outcome
import ProtobufSandbox.Json.Parse

/-!
# What the parser reads

Where the parser stands in its text depends on the text alone, not on the items
and strings that it builds. The functions of this module are those of the
parser, without what they write: they give what is left of the text, and read
what the parser reads.
-/

namespace ProtobufSandbox
namespace CJSON

/-- The second loop of `parse_string`: where `ptr` stands when it ends. -/
def scanCharacters : Nat → Bytes → Except ParseError Bytes
  | 0, _ => .error .outOfFuel
  | turns + 1, ptr => do
      let byte ← peek ptr
      if byte = quote ∨ byte = 0 then return ptr
      if byte = backslash then
        let (_, ptr) ← unescape (ptr.drop 1)
        return ← scanCharacters turns (ptr.drop 1)
      scanCharacters turns (ptr.drop 1)

/-- `parse_string`. -/
def scanString (str : Bytes) : Except ParseError Bytes := do
  if (← peek str) = quote then
    let _ ← measure (str.drop 1)
    let ptr ← scanCharacters str.length (str.drop 1)
    return if (← peek ptr) = quote then ptr.drop 1 else ptr
  throw (.malformed str)

/-- The loop over the entries behind the first one. -/
def scanEntries (entry : Bytes → Except ParseError Bytes) :
    Nat → Bytes → Except ParseError Bytes
  | 0, _ => .error .outOfFuel
  | turns + 1, value => do
      if (← peek value) = comma then
        return ← scanEntries entry turns (← entry (value.drop 1))
      return value

/-- The common body of `parse_array` and `parse_object`. -/
def scanContainer
    (opening closing : UInt8)
    (entry : Bytes → Except ParseError Bytes)
    (value : Bytes) :
    Except ParseError Bytes := do
  if (← peek value) = opening then
    let value ← skip (value.drop 1)
    if (← peek value) = closing then return value.drop 1
    let value ← entry value
    let value ← scanEntries entry value.length value
    if (← peek value) = closing then return value.drop 1
    throw (.malformed value)
  throw (.malformed value)

/-- An element of an array. -/
def scanElement
    (scan : Bytes → Except ParseError Bytes)
    (value : Bytes) :
    Except ParseError Bytes := do
  skip (← scan (← skip value))

/-- A member of an object. -/
def scanMember
    (scan : Bytes → Except ParseError Bytes)
    (value : Bytes) :
    Except ParseError Bytes := do
  let value ← skip (← scanString (← skip value))
  if (← peek value) = colon then
    return ← skip (← scan (← skip (value.drop 1)))
  throw (.malformed value)

/-- `parse_value`, down to a depth of nesting. -/
def scanValue : Nat → Bytes → Except ParseError Bytes
  | 0, _ => .error .outOfFuel
  | depth + 1, value => do
      if ← startsWith (ascii ['n', 'u', 'l', 'l']) value then
        return value.drop 4
      if ← startsWith (ascii ['f', 'a', 'l', 's', 'e']) value then
        return value.drop 5
      if ← startsWith (ascii ['t', 'r', 'u', 'e']) value then
        return value.drop 4
      let byte ← peek value
      if byte = quote then return ← scanString value
      if byte = minus ∨ Decimal.isDigit byte then
        return (← parseNumber newItem value).2
      if byte = openBracket then
        return ← scanContainer openBracket closeBracket
          (scanElement (scanValue depth)) value
      if byte = openBrace then
        return ← scanContainer openBrace closeBrace
          (scanMember (scanValue depth)) value
      throw (.malformed value)

/-- `cJSON_Parse`. -/
def scan (value : Bytes) : Except ParseError Bytes := do
  scanValue (value.length + 1) (← skip value)

/-! ## The parser reads what is scanned -/

/-- The parser stands where the scan does, unless it leaves a string that it
writes. -/
abbrev FollowsScan
    (parsed : Except ParseError (α × Bytes))
    (scanned : Except ParseError Bytes) : Prop :=
  Outcome.AgreesUnless .overflow Prod.snd parsed scanned

/-- Writing to a string does not move the pointer into the text. -/
theorem follows_store
    {size : Nat}
    {out bytes : Bytes}
    {next : Bytes → Except ParseError (α × Bytes)}
    {scanned : Except ParseError Bytes}
    (follows : ∀ out, FollowsScan (next out) scanned) :
    FollowsScan (store size out bytes >>= next) scanned := by
  rw [store]
  split
  · exact follows _
  · exact .inl rfl

theorem copyString_follows
    (size turns : Nat)
    (ptr out : Bytes) :
    FollowsScan (copyString size turns ptr out) (scanCharacters turns ptr) := by
  induction turns generalizing ptr out with
  | zero => exact .inr rfl
  | succ turns inductionHypothesis =>
      refine Outcome.AgreesUnless.bind_self fun byte => ?_
      refine Outcome.AgreesUnless.ite (.inr rfl) ?_
      by_cases escaped : byte = backslash
      · rw [if_neg (not_not.mpr escaped), if_pos escaped]
        refine Outcome.AgreesUnless.bind_self fun unescaped => ?_
        exact follows_store fun out => inductionHypothesis _ out
      · rw [if_pos escaped, if_neg escaped]
        exact follows_store fun out => inductionHypothesis _ out

theorem parseString_follows
    (item : CJSON)
    (str : Bytes) :
    FollowsScan (parseString item str) (scanString str) := by
  refine Outcome.AgreesUnless.bind_self fun byte => ?_
  by_cases quoted : byte = quote
  · rw [if_neg (not_not.mpr quoted), if_pos quoted]
    refine Outcome.AgreesUnless.bind_self fun len => ?_
    refine (copyString_follows (len + 1) str.length (str.drop 1) []).bind
      fun copied => ?_
    refine follows_store fun out => ?_
    refine Outcome.AgreesUnless.bind_self fun ending => ?_
    exact .inr rfl
  · rw [if_pos quoted, if_neg quoted]
    exact .inr rfl

section Entries

variable {entry : Bytes → Except ParseError (CJSON × Bytes)}
variable {entry' : Bytes → Except ParseError Bytes}

theorem parseEntries_follows
    (entryFollows : ∀ value, FollowsScan (entry value) (entry' value))
    (turns : Nat)
    (value : Bytes) :
    FollowsScan (parseEntries entry turns value) (scanEntries entry' turns value) := by
  induction turns generalizing value with
  | zero => exact .inr rfl
  | succ turns inductionHypothesis =>
      refine Outcome.AgreesUnless.bind_self fun byte => ?_
      by_cases isComma : byte = comma
      · rw [if_neg (not_not.mpr isComma), if_pos isComma]
        refine (entryFollows _).bind fun first => ?_
        exact (inductionHypothesis first.2).bind_ok fun _ => rfl
      · rw [if_pos isComma, if_neg isComma]
        exact .inr rfl

theorem parseContainer_follows
    (opening closing : UInt8)
    (entryFollows : ∀ value, FollowsScan (entry value) (entry' value))
    (value : Bytes) :
    FollowsScan (parseContainer opening closing entry value)
      (scanContainer opening closing entry' value) := by
  refine Outcome.AgreesUnless.bind_self fun byte => ?_
  by_cases opens : byte = opening
  · rw [if_neg (not_not.mpr opens), if_pos opens]
    refine Outcome.AgreesUnless.bind_self fun start => ?_
    refine Outcome.AgreesUnless.bind_self fun next => ?_
    refine Outcome.AgreesUnless.ite (.inr rfl) ?_
    refine (entryFollows start).bind fun first => ?_
    refine (parseEntries_follows entryFollows _ _).bind fun others => ?_
    refine Outcome.AgreesUnless.bind_self fun last => ?_
    exact Outcome.AgreesUnless.ite (.inr rfl) (.inr rfl)
  · rw [if_pos opens, if_neg opens]
    exact .inr rfl

end Entries

section Values

variable {parse : CJSON → Bytes → Except ParseError (CJSON × Bytes)}
variable {scan : Bytes → Except ParseError Bytes}

theorem parseElement_follows
    (parseFollows : ∀ item value, FollowsScan (parse item value) (scan value))
    (value : Bytes) :
    FollowsScan (parseElement parse value) (scanElement scan value) := by
  refine Outcome.AgreesUnless.bind_self fun start => ?_
  refine (parseFollows newItem start).bind fun result => ?_
  exact (Outcome.AgreesUnless.refl (skip result.2)).bind_ok fun _ => rfl

theorem parseMember_follows
    (parseFollows : ∀ item value, FollowsScan (parse item value) (scan value))
    (value : Bytes) :
    FollowsScan (parseMember parse value) (scanMember scan value) := by
  refine Outcome.AgreesUnless.bind_self fun start => ?_
  refine (parseString_follows newItem start).bind fun named => ?_
  refine Outcome.AgreesUnless.bind_self fun separator => ?_
  refine Outcome.AgreesUnless.bind_self fun byte => ?_
  by_cases separated : byte = colon
  · rw [if_neg (not_not.mpr separated), if_pos separated]
    refine Outcome.AgreesUnless.bind_self fun content => ?_
    refine (parseFollows _ content).bind fun result => ?_
    exact (Outcome.AgreesUnless.refl (skip result.2)).bind_ok fun _ => rfl
  · rw [if_pos separated, if_neg separated]
    exact .inr rfl

end Values

theorem parseValue_follows
    (depth : Nat)
    (item : CJSON)
    (value : Bytes) :
    FollowsScan (parseValue depth item value) (scanValue depth value) := by
  induction depth generalizing item value with
  | zero => exact .inr rfl
  | succ depth inductionHypothesis =>
      -- The three literals come first.
      iterate 3
        refine Outcome.AgreesUnless.bind_self fun found => ?_
        refine Outcome.AgreesUnless.ite (.inr rfl) ?_
      refine Outcome.AgreesUnless.bind_self fun byte => ?_
      refine Outcome.AgreesUnless.ite (parseString_follows item value) ?_
      refine Outcome.AgreesUnless.ite ?number ?_
      case number =>
        simp only [parseNumber, bind_assoc]
        iterate 4 refine Outcome.AgreesUnless.bind_self fun _ => ?_
        exact .inr rfl
      refine Outcome.AgreesUnless.ite ?array ?_
      case array =>
        exact (parseContainer_follows _ _
          (parseElement_follows inductionHypothesis) value).bind_ok fun _ => rfl
      refine Outcome.AgreesUnless.ite ?object (.inr rfl)
      case object =>
        exact (parseContainer_follows _ _
          (parseMember_follows inductionHypothesis) value).bind_ok fun _ => rfl

/-- `cJSON_Parse` stops where the scan stops. -/
theorem parseWithOpts_follows (value : Bytes) :
    FollowsScan (parseWithOpts value false) (scan value) := by
  refine Outcome.AgreesUnless.bind_self fun start => ?_
  exact (parseValue_follows _ newItem start).bind_ok fun _ => rfl

theorem parse_eq_error_iff
    {value : Bytes}
    {error : ParseError} :
    parse value = .error error ↔ parseWithOpts value false = .error error := by
  rw [parse]
  cases parseWithOpts value false with
  | ok result =>
      constructor
      · intro failed
        cases failed
      · intro failed
        cases failed
  | error failure =>
      constructor
      · intro failed
        cases failed
        rfl
      · intro failed
        cases failed
        rfl

end CJSON
end ProtobufSandbox
