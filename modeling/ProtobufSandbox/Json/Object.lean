import ProtobufSandbox.Foundation.KeyedList
import ProtobufSandbox.Json.Parse

/-!
# Members of an object

The functions of `cJSON` that look a member up by its name, ignoring case, and
those that create items, add them at the end of a chain and put them in the
place of others. A pointer to an item is the chain from that item on; the null
pointer is the empty chain.
-/

namespace ProtobufSandbox

/-- `tolower` in the C locale. -/
def toLower (byte : UInt8) : UInt8 :=
  if 0x41 ≤ byte ∧ byte ≤ 0x5A then byte + 0x20 else byte

/-- The loop of `cJSON_strcasecmp`, on strings without their terminators. -/
def strcasecmpLoop : Bytes → Bytes → Int
  | [], [] => 0
  | [], byte :: _ => -(toLower byte).toNat
  | byte :: _, [] => (toLower byte).toNat
  | first :: s1, second :: s2 =>
      if toLower first = toLower second then strcasecmpLoop s1 s2
      else (toLower first).toNat - (toLower second).toNat

/-- `cJSON_strcasecmp`. -/
def strcasecmp : Option CString → Option CString → Int
  | none, none => 0
  | none, some _ => 1
  | some _, none => 1
  | some s1, some s2 => strcasecmpLoop s1.val s2.val

/-- No byte but the terminator becomes zero in lower case. -/
theorem toLower_ne_zero {byte : UInt8} (nonzero : byte ≠ 0) :
    (toLower byte).toNat ≠ 0 := by
  have checked : ∀ byte : UInt8, byte ≠ 0 → (toLower byte).toNat ≠ 0 :=
    forall_byte (by decide)
  exact checked byte nonzero

/-- The loop answers zero exactly for strings that are equal in lower case. -/
theorem strcasecmpLoop_eq_zero_iff
    {s1 s2 : Bytes}
    (firstNonzero : (0 : UInt8) ∉ s1)
    (secondNonzero : (0 : UInt8) ∉ s2) :
    strcasecmpLoop s1 s2 = 0 ↔ s1.map toLower = s2.map toLower := by
  induction s1 generalizing s2 with
  | nil =>
      cases s2 with
      | nil => simp [strcasecmpLoop]
      | cons byte s2 =>
          have nonzero := toLower_ne_zero
            (fun equal => secondNonzero (equal ▸ List.mem_cons_self))
          simpa [strcasecmpLoop] using nonzero
  | cons first s1 inductionHypothesis =>
      cases s2 with
      | nil =>
          have nonzero := toLower_ne_zero
            (fun equal => firstNonzero (equal ▸ List.mem_cons_self))
          simpa [strcasecmpLoop] using nonzero
      | cons second s2 =>
          have tail := inductionHypothesis
            (fun present => firstNonzero (List.mem_cons_of_mem _ present))
            (fun present => secondNonzero (List.mem_cons_of_mem _ present))
          rw [strcasecmpLoop, List.map_cons, List.map_cons, List.cons.injEq]
          by_cases equal : toLower first = toLower second
          · rw [if_pos equal, tail]
            simp [equal]
          · rw [if_neg equal]
            refine iff_of_false (fun same => equal ?_) (fun same => equal same.1)
            apply UInt8.toNat_inj.mp
            omega

namespace CJSON

/-! ## Names -/

/-- The name of an item as a `std::string`. -/
def name (item : CJSON) : Option Bytes :=
  item.string.map Subtype.val

/-- The key that a member has as its name is stored as it is. -/
theorem ofBuffer_val_of_name
    {item : CJSON}
    {key : Bytes}
    (named : item.name = some key) :
    (CString.ofBuffer key).val = key := by
  obtain ⟨string, -, rfl⟩ := Option.map_eq_some_iff.mp named
  rw [CString.ofBuffer_val]

/-- The names of the members of an item, in order. -/
def names (item : CJSON) : List Bytes :=
  KeyedList.names name item.child

/-- The name of the item is the given one, ignoring case. -/
def namedLike (string : CString) (item : CJSON) : Bool :=
  decide (strcasecmp item.string (some string) = 0)

/-- A name is like itself. -/
theorem namedLike_of_name
    {item : CJSON}
    {string : CString}
    (named : item.name = some string.val) :
    item.namedLike string = true := by
  unfold name at named
  cases present : item.string with
  | none => simp [present] at named
  | some own =>
      rw [present, Option.map_some, Option.some.injEq] at named
      obtain rfl := Subtype.ext named
      rw [namedLike, present, decide_eq_true_eq, strcasecmp,
        strcasecmpLoop_eq_zero_iff own.property own.property]

/-- An item with a name like another has a name. -/
theorem exists_name_of_namedLike
    {item : CJSON}
    {string : CString}
    (like : item.namedLike string = true) :
    ∃ own, item.name = some own := by
  unfold namedLike at like
  cases present : item.string with
  | none => simp [present, strcasecmp] at like
  | some own => exact ⟨own.val, by rw [name, present]; rfl⟩

/-- `cJSON_GetObjectItem`: the chain from the first member with the name,
ignoring case. -/
def getObjectItem (object : CJSON) (string : CString) : List CJSON :=
  object.child.dropWhile fun member => !member.namedLike string

/-- Where that member stands. -/
def indexLike (object : CJSON) (string : CString) : Option Nat :=
  object.child.findIdx? fun member => member.namedLike string

/-! ## New items -/

/-- `cJSON_CreateNull`. -/
def createNull : CJSON := { newItem with type := .null }

/-- `cJSON_CreateTrue`. -/
def createTrue : CJSON := { newItem with type := .true }

/-- `cJSON_CreateFalse`. -/
def createFalse : CJSON := { newItem with type := .false }

/-- `cJSON_CreateNumber`. -/
def createNumber (num : Rat) : CJSON :=
  { newItem with type := .number, valuedouble := num, valueint := toInt num }

/-- `cJSON_CreateString`. -/
def createString (string : CString) : CJSON :=
  { newItem with type := .string, valuestring := some string }

/-- `cJSON_CreateObject`. -/
def createObject : CJSON := { newItem with type := .object }

/-- `cJSON_AddItemToArray`. -/
def addItemToArray (array item : CJSON) : CJSON :=
  { array with child := array.child ++ [item] }

/-- `cJSON_AddItemToObject`; nothing is done with a null item. -/
def addItemToObject
    (object : CJSON)
    (string : CString) : Option CJSON → CJSON
  | none => object
  | some item => object.addItemToArray { item with string := some string }

/-- `cJSON_ReplaceItemInArray`. -/
def replaceItemInArray (array : CJSON) (which : Nat) (newitem : CJSON) : CJSON :=
  { array with child := array.child.set which newitem }

end CJSON

/-- How a call of the attribute functions can fail to return. -/
inductive AttributeError
  /-- A null item is dereferenced. -/
  | nullItem
  /-- A null name is compared. -/
  | nullName
  /-- A null `valuestring` is read or written. -/
  | nullString
  /-- A loop goes round without moving on. -/
  | endless
  /-- A sum of integers overflows. -/
  | intOverflow
  /-- The parser reads or writes out of bounds. -/
  | parser (error : ParseError)
  deriving DecidableEq

namespace CJSON

/-- `cJSON_ReplaceItemInObject`: the first member with the name, ignoring case,
gives way to the new item under the name as it is spelled in the call. -/
def replaceItemInObject
    (object : CJSON)
    (string : CString)
    (newitem : Option CJSON) : Except AttributeError CJSON :=
  match object.indexLike string with
  | none => .ok object
  | some which =>
      match newitem with
      | none => .error .nullItem
      | some newitem =>
          .ok (object.replaceItemInArray which
            { newitem with string := some string })

/-! ## Lookup -/

/-- The first member with a name, ignoring case, and no earlier one. -/
theorem exists_of_indexLike
    {object : CJSON}
    {string : CString}
    {index : Nat}
    (found : object.indexLike string = some index) :
    ∃ member, object.child[index]? = some member ∧
      member.namedLike string = true := by
  obtain ⟨inRange, like, -⟩ := List.findIdx?_eq_some_iff_getElem.mp found
  exact ⟨_, List.getElem?_eq_getElem inRange, like⟩

/-- A member with exactly the name is found, if not another one first. -/
theorem exists_indexLike_of_mem
    {object : CJSON}
    {string : CString}
    (present : string.val ∈ object.names) :
    ∃ index, object.indexLike string = some index := by
  obtain ⟨member, isMember, named⟩ := KeyedList.mem_names_iff.mp present
  apply Option.isSome_iff_exists.mp
  rw [indexLike, List.findIdx?_isSome, List.any_eq_true]
  exact ⟨member, isMember, namedLike_of_name named⟩

end CJSON
end ProtobufSandbox
