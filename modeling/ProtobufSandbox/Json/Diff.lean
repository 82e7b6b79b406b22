import ProtobufSandbox.Json.Attributes

/-!
# Differences of two trees

`diffJSONObjects` and what it calls. A run carries the tree that the entries are
added to and the items whose `valuestring` was streamed or converted. The loop
spends fuel in every turn, since a `continue` comes back to the same item.
-/

namespace ProtobufSandbox

/-! ## Texts of entries -/

/-- Digits behind a point, without the zeros at the end. -/
def fraction (width value : Nat) : Bytes :=
  let decimals := (padded width value).reverse.dropWhile (· = zeroDigit)
  if decimals = [] then [] else point :: decimals.reverse

/-- What a stream writes for a `double`: six digits, `"%g"`. -/
def formatGeneral (number : Rat) : Bytes :=
  let exponent := Int.log 10 |number|
  let rounded := roundHalfEven (|number| / 10 ^ exponent * 10 ^ 5)
  -- Rounding may carry into the next power of ten.
  let carried := decide (rounded = 10 ^ 6)
  let mantissa := if carried then 10 ^ 5 else rounded
  let exponent := if carried then exponent + 1 else exponent
  if exponent < -4 ∨ 6 ≤ exponent then
    signOf number ++ Decimal.digits (mantissa / 10 ^ 5) ++
      fraction 5 (mantissa % 10 ^ 5) ++
      ascii ['e', if exponent < 0 then '-' else '+'] ++
      padded 2 exponent.natAbs
  else
    let decimals := (5 - exponent).toNat
    signOf number ++ Decimal.digits (mantissa / 10 ^ decimals) ++
      fraction decimals (mantissa % 10 ^ decimals)

/-- What a stream holds after some writes: a null `char *` sets `badbit`, and
nothing is written from then on. -/
def streamed (writes : List (Option Bytes)) : Bytes :=
  (writes.takeWhile Option.isSome).flatMap fun write => write.getD []

/-- `" -> "`. -/
def arrow : Bytes := ascii [' ', '-', '>', ' ']

/-- `" was added"`. -/
def wasAdded : Bytes := ascii [' ', 'w', 'a', 's', ' ', 'a', 'd', 'd', 'e', 'd']

/-- `": Type mismatch (2nd item not an array)"`. -/
def typeMismatch : Bytes :=
  ascii [':', ' ', 'T', 'y', 'p', 'e', ' ', 'm', 'i', 's', 'm', 'a', 't', 'c', 'h',
    ' ', '(', '2', 'n', 'd', ' ', 'i', 't', 'e', 'm', ' ', 'n', 'o', 't', ' ', 'a',
    'n', ' ', 'a', 'r', 'r', 'a', 'y', ')']

/-- `AreSame`; the epsilon of `double` is `DBL_EPSILON`. -/
def AreSame (a b : Rat) : Prop :=
  |a - b| < dblEpsilon

instance AreSame.decidable (a b : Rat) : Decidable (AreSame a b) :=
  inferInstanceAs (Decidable (_ < _))

/-! ## Runs -/

/-- What the calls have done so far. -/
structure DiffRun where
  /-- `JSONObjDiff`. -/
  diff : CJSON
  /-- The items whose `valuestring` was streamed or converted, in order. -/
  used : List CJSON

/-- How a call can fail to return. -/
inductive DiffError where
  /-- A null item is dereferenced or a null string is converted. -/
  | failed (error : AttributeError)
  /-- The fuel is spent; what was done until then. -/
  | outOfFuel (run : DiffRun)

/-- An entry is added under a name. -/
def DiffRun.addEntry (run : DiffRun) (name : CString) (text : Bytes) : DiffRun :=
  { run with
    diff := run.diff.addItemToObject name
      (some (CJSON.createString (CString.ofBuffer text))) }

/-- The `valuestring` of some items is streamed or converted. -/
def DiffRun.use (run : DiffRun) (items : List CJSON) : DiffRun :=
  { run with used := run.used ++ items }

namespace CJSON

/-- The text of an item, which may be null. -/
def text (item : CJSON) : Option Bytes :=
  item.valuestring.map Subtype.val

/-- `cJSON_GetArrayItem`. -/
def getArrayItem (array : CJSON) (item : Nat) : List CJSON :=
  array.child.drop item

/-- `diffJSONObject`. -/
def diffJSONObject
    (item1 item2 : List CJSON)
    (itemstring : CString)
    (run : DiffRun) : Except DiffError DiffRun :=
  match item1, item2 with
  | [], _ => .ok run
  | _ :: _, [] => .ok run
  | item1 :: _, item2 :: _ =>
      match item1.type with
      | .false =>
          if item2.type = .true then
            .ok (run.addEntry itemstring
              (ascii ['F', 'a', 'l', 's', 'e', ' ', '-', '>', ' ', 'T', 'r', 'u', 'e']))
          else .ok run
      | .true =>
          if item2.type = .true then .ok run
          else
            .ok (run.addEntry itemstring
              (ascii ['T', 'r', 'u', 'e', ' ', '-', '>', ' ', 'F', 'a', 'l', 's', 'e']))
      | .null =>
          if item2.type = .null then .ok run
          else
            .ok (run.addEntry itemstring
              (ascii ['N', 'U', 'L', 'L'] ++ arrow ++
                formatGeneral item2.valuedouble))
      | .number =>
          if AreSame item1.valuedouble item2.valuedouble then .ok run
          else
            .ok (run.addEntry itemstring
              (formatGeneral item1.valuedouble ++ arrow ++
                formatGeneral item2.valuedouble))
      | .string =>
          match item2.text, item1.text with
          | none, _ => .error (.failed .nullString)
          | some _, none => .error (.failed .nullString)
          | some second, some first =>
              if second = first then .ok (run.use [item2, item1])
              else
                .ok ((run.use [item2, item1, item1]).addEntry itemstring
                  (first ++ arrow ++ second))
      | .array | .object => .ok run

/-- The loop over the elements of two arrays. -/
def diffElements
    (item1 item2 : CJSON)
    (string : CString)
    (run : DiffRun) : Except DiffError DiffRun :=
  (List.range item1.child.length).foldlM
    (fun run idx =>
      diffJSONObject (item1.getArrayItem idx) (item2.getArrayItem idx)
        (CString.ofBuffer
          (string.val ++ ascii ['['] ++ Decimal.digits idx ++ ascii [']'])) run)
    run

/-- An entry for an item that the second object does not have. Its `valuestring`
is streamed, whatever its type. -/
def addedEntry (item1 : CJSON) (string : CString) (run : DiffRun) : DiffRun :=
  (run.use [item1]).addEntry string (streamed [item1.text, some wasAdded])

/-- The `switch` in a turn of `diffJSONObjects`; `nested` is the recursive call. -/
def diffItem
    (nested : DiffRun → Except DiffError DiffRun)
    (item1 : CJSON)
    (string : CString)
    (JSONObj2 : CJSON)
    (next2 : List CJSON)
    (run : DiffRun) : Except DiffError DiffRun := do
  let found ← (doesAttributeExist (JSONObj2 :: next2) string.val false).mapError
    DiffError.failed
  match item1.type with
  | .array =>
      if found then
        match JSONObj2.getObjectItem string with
        | [] => throw (.failed .nullItem)
        | item2 :: _ =>
            if item2.type = .array then diffElements item1 item2 string run
            else
              let name2 := item2.string.getD (CString.ofBuffer [])
              return run.addEntry name2 (name2.val ++ typeMismatch)
      else return run
  | .object =>
      if found then nested run else return addedEntry item1 string run
  | .false | .true | .null | .number | .string =>
      if found then
        diffJSONObject [item1] (JSONObj2.getObjectItem string) string run
      else return addedEntry item1 string run

/-- The recursive call, which ends at once when it is given a null item; `loop` is
what follows that test. -/
def diffNested
    (loop : CJSON → CJSON → List CJSON → DiffRun → Except DiffError DiffRun)
    (JSONObj1 JSONObj2 : CJSON)
    (string : CString)
    (run : DiffRun) : Except DiffError DiffRun :=
  match JSONObj1.getObjectItem string, JSONObj2.getObjectItem string with
  | [], _ => .ok run
  | _ :: _, [] => .ok run
  | sub1 :: _, sub2 :: siblings2 => loop sub1 sub2 siblings2 run

/-- The loop of `diffJSONObjects`. -/
def diffLoop (fuel : Nat) (JSONObj1 : CJSON) :
    List CJSON → CJSON → List CJSON → DiffRun → Except DiffError DiffRun :=
  match fuel with
  | 0 => fun _ _ _ run => .error (.outOfFuel run)
  | fuel + 1 => fun
    | [], _, _, run => .ok run
    | item1 :: next, JSONObj2, next2, run =>
        match item1.string with
        -- `continue` comes back to the same item.
        | none => diffLoop fuel JSONObj1 (item1 :: next) JSONObj2 next2 run
        | some string =>
            if string.val = [] then
              diffLoop fuel JSONObj1 (item1 :: next) JSONObj2 next2 run
            else do
              let nested := diffNested (fun sub1 => diffLoop fuel sub1 sub1.child)
                JSONObj1 JSONObj2 string
              let run ← diffItem nested item1 string JSONObj2 next2 run
              diffLoop fuel JSONObj1 next JSONObj2 next2 run

/-- `diffJSONObjects`. -/
def diffJSONObjects
    (fuel : Nat)
    (JSONObj1 JSONObj2 : List CJSON)
    (JSONObjDiff : CJSON) : Except DiffError (Bool × DiffRun) :=
  match JSONObj1, JSONObj2 with
  | _, [] => .ok (false, ⟨JSONObjDiff, []⟩)
  | [], _ :: _ => .ok (false, ⟨JSONObjDiff, []⟩)
  | JSONObj1 :: _, JSONObj2 :: next2 => do
      let run ← diffLoop fuel JSONObj1 JSONObj1.child JSONObj2 next2 ⟨JSONObjDiff, []⟩
      return (true, run)

end CJSON
end ProtobufSandbox
