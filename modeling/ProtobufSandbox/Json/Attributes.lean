import ProtobufSandbox.Foundation.Outcome
import ProtobufSandbox.Json.Object

/-!
# Attributes

The functions of `CNT_JSON` that read and write attributes. The getters and
setters walk a chain and compare each name before they look at the type; the
item they write is then found again by `cJSON`, which ignores case. A `cJSON *`
is the chain from the item on, and a call on a chain returns the chain.
-/

namespace ProtobufSandbox
namespace CJSON

/-- The keys the code spells out itself. -/
def keyOf (characters : List Char) : CString :=
  CString.ofBuffer (ascii characters)

/-! ## Presence -/

/-- The item has a name that is not empty, and it is the key. -/
def hasKey (key : Bytes) (item : CJSON) : Bool :=
  match item.string with
  | none => false
  | some string => !string.val.isEmpty && decide (key = string.val)

mutual

/-- The item has the key, or something under it does. -/
def existsAt (key : Bytes) (recurse : Bool) : CJSON → Bool
  | ⟨child, type, valuestring, valueint, valuedouble, string⟩ =>
      hasKey key ⟨child, type, valuestring, valueint, valuedouble, string⟩ ||
        (recurse && (type = .array || type = .object) &&
          existsIn key recurse child)

/-- The loop of `doesAttributeExist`. -/
def existsIn (key : Bytes) (recurse : Bool) : List CJSON → Bool
  | [] => false
  | subitem :: next => existsAt key recurse subitem || existsIn key recurse next

end

/-- `doesAttributeExist`. -/
def doesAttributeExist
    (JSONObj : List CJSON)
    (key : Bytes)
    (recurse : Bool) : Except AttributeError Bool :=
  match JSONObj with
  | [] => .error .nullItem
  | item :: next =>
      .ok (existsIn key recurse
        (if item.IsContainer then item.child else item :: next))

/-! ## Search -/

/-- The `switch` in front of a loop over attributes of a scalar type: it starts
at an item of that type itself, in an object at its first member, and else
behind the item. -/
def subitems
    (scalar : CJSONType → Bool)
    (item : CJSON)
    (next : List CJSON) : List CJSON :=
  if scalar item.type then item :: next
  else if item.type = .object then item.child
  else next

/-- A chain whose item has new subitems. -/
def withSubitems
    (scalar : CJSONType → Bool)
    (item : CJSON)
    (next items : List CJSON) : List CJSON :=
  if scalar item.type then items
  else if item.type = .object then { item with child := items } :: next
  else item :: items

/-- The loop: the first item whose name is the key and whose type is accepted,
with its place. The name is compared first. -/
def findAttribute
    (key : Bytes)
    (accepts : CJSONType → Bool) :
    List CJSON → Except AttributeError (Option (Nat × CJSON))
  | [] => .ok none
  | subitem :: next =>
      match subitem.string with
      | none => .error .nullName
      | some string =>
          if key = string.val ∧ accepts subitem.type then .ok (some (0, subitem))
          else
            (findAttribute key accepts next).map fun found =>
              found.map fun (index, item) => (index + 1, item)

section Loop

variable {key : Bytes} {accepts : CJSONType → Bool} {subitem : CJSON} {string : CString}

/-- The loop stops at an item with the key and an accepted type. -/
theorem findAttribute_cons_of_pos
    (present : subitem.string = some string)
    (here : key = string.val ∧ accepts subitem.type = true)
    (next : List CJSON) :
    findAttribute key accepts (subitem :: next) = .ok (some (0, subitem)) := by
  rw [findAttribute, present]
  exact if_pos here

/-- It goes on behind any other item that has a name. -/
theorem findAttribute_cons_of_neg
    (present : subitem.string = some string)
    (other : ¬ (key = string.val ∧ accepts subitem.type = true))
    (next : List CJSON) :
    findAttribute key accepts (subitem :: next) =
      (findAttribute key accepts next).map fun found =>
        found.map fun later => (later.1 + 1, later.2) := by
  rw [findAttribute, present]
  exact if_neg other

/-- The loop of the getters finds an item with exactly the key. -/
theorem of_findAttribute_eq_some
    {items : List CJSON}
    {index : Nat}
    {item : CJSON}
    (found : findAttribute key accepts items = .ok (some (index, item))) :
    items[index]? = some item ∧ item.name = some key ∧
      accepts item.type = true := by
  induction items generalizing index with
  | nil => cases found
  | cons subitem next inductionHypothesis =>
      cases present : subitem.string with
      | none => simp [findAttribute, present] at found
      | some string =>
          by_cases here : key = string.val ∧ accepts subitem.type = true
          · rw [findAttribute_cons_of_pos present here] at found
            cases found
            exact ⟨rfl, by rw [name, present, here.1]; rfl, here.2⟩
          · rw [findAttribute_cons_of_neg present here] at found
            obtain ⟨result, rest, later⟩ := Outcome.map_eq_ok_iff.mp found
            obtain ⟨⟨place, other⟩, rfl, same⟩ := Option.map_eq_some_iff.mp later
            cases same
            exact inductionHypothesis rest

/-- If it finds none, there is none. -/
theorem of_findAttribute_eq_none
    {items : List CJSON}
    (found : findAttribute key accepts items = .ok none) :
    ¬ ∃ item ∈ items, item.name = some key ∧ accepts item.type = true := by
  induction items with
  | nil => simp
  | cons subitem next inductionHypothesis =>
      cases present : subitem.string with
      | none => simp [findAttribute, present] at found
      | some string =>
          by_cases here : key = string.val ∧ accepts subitem.type = true
          · rw [findAttribute_cons_of_pos present here] at found
            cases found
          · rw [findAttribute_cons_of_neg present here] at found
            obtain ⟨result, rest, later⟩ := Outcome.map_eq_ok_iff.mp found
            rw [Option.map_eq_none_iff] at later
            subst later
            rintro ⟨item, isItem, named, accepted⟩
            cases List.mem_cons.mp isItem with
            | inl equal =>
                subst equal
                rw [name, present, Option.map_some, Option.some.injEq] at named
                exact here ⟨named.symm, accepted⟩
            | inr later =>
                exact inductionHypothesis rest ⟨item, later, named, accepted⟩

/-- The loop comes to an end on items that all have names. -/
theorem exists_findAttribute
    {items : List CJSON}
    (named : ∀ item ∈ items, item.string.isSome) :
    ∃ found, findAttribute key accepts items = .ok found := by
  induction items with
  | nil => exact ⟨none, rfl⟩
  | cons item items inductionHypothesis =>
      obtain ⟨itemNamed, named⟩ := List.forall_mem_cons.mp named
      obtain ⟨string, present⟩ := Option.isSome_iff_exists.mp itemNamed
      obtain ⟨found, rest⟩ := inductionHypothesis named
      by_cases here : key = string.val ∧ accepts item.type = true
      · exact ⟨_, findAttribute_cons_of_pos present here items⟩
      · rw [findAttribute_cons_of_neg present here, rest]
        exact ⟨_, rfl⟩

end Loop

/-- The types of booleans. -/
def isBool (type : CJSONType) : Bool :=
  type = .true || type = .false

/-- The type of numbers. -/
def isNumber (type : CJSONType) : Bool :=
  type = .number

/-- The type of strings. -/
def isString (type : CJSONType) : Bool :=
  type = .string

/-- The getters: the item that the loop stops at. -/
def getAttribute
    (scalar accepts : CJSONType → Bool)
    (JSONObj : List CJSON)
    (key : Bytes) : Except AttributeError (Option CJSON) :=
  match JSONObj with
  | [] => .error .nullItem
  | item :: next =>
      (findAttribute key accepts (subitems scalar item next)).map
        fun found => found.map Prod.snd

/-! ## Getters -/

/-- `getAttributeValue_Int`; nothing stands for false. -/
def getAttributeValueInt
    (JSONObj : List CJSON)
    (key : Bytes) : Except AttributeError (Option Int32) :=
  (getAttribute isNumber isNumber JSONObj key).map fun found =>
    found.map CJSON.valueint

/-- The integer is that of a number with exactly the key. -/
theorem of_getAttributeValueInt_eq_some
    {item : CJSON}
    {next : List CJSON}
    {key : Bytes}
    {value : Int32}
    (found : getAttributeValueInt (item :: next) key = .ok (some value)) :
    ∃ member ∈ subitems isNumber item next,
      member.name = some key ∧ member.type = .number ∧ member.valueint = value := by
  obtain ⟨answer, asked, isValue⟩ := Outcome.map_eq_ok_iff.mp found
  obtain ⟨member, rfl, rfl⟩ := Option.map_eq_some_iff.mp isValue
  obtain ⟨place, searched, got⟩ := Outcome.map_eq_ok_iff.mp asked
  obtain ⟨⟨index, other⟩, rfl, rfl⟩ := Option.map_eq_some_iff.mp got
  obtain ⟨there, named, number⟩ := of_findAttribute_eq_some searched
  exact ⟨other, List.mem_of_getElem? there, named, of_decide_eq_true number, rfl⟩

/-- `getAttributeDefault_Int`. -/
def getAttributeDefaultInt
    (JSONObj : List CJSON)
    (key : Bytes)
    (missing : Int32) : Except AttributeError Int32 :=
  (getAttributeValueInt JSONObj key).map fun found => found.getD missing

/-- `getAttributeValue_Double`. -/
def getAttributeValueDouble
    (JSONObj : List CJSON)
    (key : Bytes) : Except AttributeError (Option Rat) :=
  (getAttribute isNumber isNumber JSONObj key).map fun found =>
    found.map CJSON.valuedouble

/-- `getAttributeValue_Bool`: the first item with the name decides, whatever its
type. -/
def getAttributeValueBool
    (JSONObj : List CJSON)
    (key : Bytes) : Except AttributeError (Option Bool) :=
  (getAttribute isBool (fun _ => true) JSONObj key).map fun found =>
    found.bind fun item =>
      match item.type with
      | .true => some true
      | .false => some false
      | .null | .number | .string | .array | .object => none

/-- `getAttributeValue_String`. -/
def getAttributeValueString
    (JSONObj : List CJSON)
    (key : Bytes) : Except AttributeError (Option Bytes) := do
  match ← getAttribute isString isString JSONObj key with
  | none => return none
  | some item =>
      match item.valuestring with
      | none => throw .nullString
      | some valuestring => return some valuestring.val

/-! ## Setters -/

/-- Change the item at a place of the subitems. -/
def writeSubitem
    (scalar : CJSONType → Bool)
    (item : CJSON)
    (next : List CJSON)
    (index : Nat)
    (write : CJSON → CJSON) : List CJSON :=
  withSubitems scalar item next
    ((subitems scalar item next).modify index write)

section Object

variable {scalar : CJSONType → Bool} {object : CJSON}
variable (isObject : object.type = .object) (notScalar : scalar .object = false)
variable (next : List CJSON)

include isObject notScalar

/-- A loop over attributes starts at the first member of an object. -/
theorem subitems_of_object : subitems scalar object next = object.child := by
  rw [subitems, isObject, notScalar, if_neg Bool.false_ne_true, if_pos rfl]

/-- In an object a member is written. -/
theorem writeSubitem_of_object
    (index : Nat)
    (write : CJSON → CJSON) :
    writeSubitem scalar object next index write =
      { object with child := object.child.modify index write } :: next := by
  rw [writeSubitem, subitems_of_object isObject notScalar, withSubitems, isObject,
    notScalar, if_neg Bool.false_ne_true, if_pos rfl]

end Object

/-- The setters of numbers and strings: an item that the loop finds is replaced
under its name, which may hit another item, and then written. Without one a new
item is added. -/
def replaceAttribute
    (scalar : CJSONType → Bool)
    (write : CJSON → CJSON)
    (JSONObj : List CJSON)
    (key : Bytes)
    (newitem : CJSON) : Except AttributeError (List CJSON) :=
  match JSONObj with
  | [] => .error .nullItem
  | item :: next => do
      match ← findAttribute key scalar (subitems scalar item next) with
      | none =>
          return item.addItemToObject (CString.ofBuffer key) (some newitem) :: next
      | some (index, subitem) =>
          match subitem.string with
          | none => throw .nullName
          | some string =>
              let replaced ← item.replaceItemInObject string (some newitem)
              -- The replaced member is deleted; a write to it changes no tree.
              if item.type = .object ∧ item.indexLike string = some index then
                return replaced :: next
              return writeSubitem scalar replaced next index write

/-- `setAttributeValue_Int`. -/
def setAttributeValueInt
    (JSONObj : List CJSON)
    (key : Bytes)
    (valueint : Int32) : Except AttributeError (List CJSON) :=
  replaceAttribute isNumber ({ · with valueint := valueint }) JSONObj key
    (createNumber valueint.toInt)

/-- `setAttributeValue_Double`. -/
def setAttributeValueDouble
    (JSONObj : List CJSON)
    (key : Bytes)
    (valuedouble : Rat) : Except AttributeError (List CJSON) :=
  replaceAttribute isNumber id JSONObj key (createNumber valuedouble)

/-- `setAttributeValue_String`. -/
def setAttributeValueString
    (JSONObj : List CJSON)
    (key : Bytes)
    (valuestring : Bytes) : Except AttributeError (List CJSON) :=
  replaceAttribute isString id JSONObj key
    (createString (CString.ofBuffer valuestring))

/-- `setAttributeValue_Bool`. -/
def setAttributeValueBool
    (JSONObj : List CJSON)
    (key : Bytes)
    (valuebool : Bool) : Except AttributeError (List CJSON) :=
  match JSONObj with
  | [] => .error .nullItem
  | item :: next => do
      match ← findAttribute key isBool (subitems isBool item next) with
      | none =>
          return item.addItemToObject (CString.ofBuffer key)
            (some (if valuebool then createTrue else createFalse)) :: next
      | some (index, _) =>
          return writeSubitem isBool item next index
            ({ · with type := if valuebool then .true else .false })

/-- `incrAttributeValue_Int`. -/
def incrAttributeValueInt
    (JSONObj : List CJSON)
    (key : Bytes)
    (incr : Int32) : Except AttributeError (Bool × List CJSON) := do
  match ← getAttributeValueInt JSONObj key with
  | none => return (false, JSONObj)
  | some curVal =>
      let sum := curVal.toInt + incr.toInt
      if Int32.minValue.toInt ≤ sum ∧ sum ≤ Int32.maxValue.toInt then
        return (true, ← setAttributeValueInt JSONObj key (Int32.ofInt sum))
      throw .intOverflow

/-- `incrAttributeValue_Double`. -/
def incrAttributeValueDouble
    (JSONObj : List CJSON)
    (key : Bytes)
    (incr : Rat) : Except AttributeError (Bool × List CJSON) := do
  match ← getAttributeValueDouble JSONObj key with
  | none => return (false, JSONObj)
  | some curVal =>
      return (true, ← setAttributeValueDouble JSONObj key (curVal + incr))

/-! ## Copies -/

/-- What `cJSON_Parse` returns: a null pointer for a text that is malformed. -/
def parseOrNull (text : Bytes) : Except AttributeError (Option CJSON) :=
  match parse text with
  | .ok tmpJSON => .ok (some tmpJSON)
  | .error (.malformed _) => .ok none
  | .error error => .error (.parser error)

/-- The item that the `switch` of `mergeJSONObjects` and `copyItem` creates: the
same scalar, or what the parser makes of the printed array or object, which may
be nothing. The printer writes numbers with `number`. -/
def copyOfWith
    (number : CJSON → Bytes)
    (item : CJSON) : Except AttributeError (Option CJSON) :=
  match item.type with
  | .false => .ok (some createFalse)
  | .true => .ok (some createTrue)
  | .null => .ok (some createNull)
  | .number => .ok (some (createNumber item.valuedouble))
  | .string =>
      match item.valuestring with
      | none => .error .nullString
      | some valuestring => .ok (some (createString valuestring))
  | .array | .object => parseOrNull (item.printValueWith number 0 true ++ [0])

theorem copyOfWith_container
    {item : CJSON}
    (container : item.IsContainer)
    (number : CJSON → Bytes) :
    copyOfWith number item =
      parseOrNull (item.printValueWith number 0 true ++ [0]) := by
  rcases container with type | type
  · rw [copyOfWith, type]
  · rw [copyOfWith, type]

/-- The copy of an item with finite numbers. -/
def copyOf (item : CJSON) : Except AttributeError (Option CJSON) :=
  copyOfWith printNumber item

/-- Replace an attribute that exists, and add one that does not. -/
def install
    (targetJSONObj : List CJSON)
    (key : CString)
    (newitem : Option CJSON) : Except AttributeError (List CJSON) := do
  let found ← doesAttributeExist targetJSONObj key.val false
  match targetJSONObj with
  | [] => throw .nullItem
  | item :: next =>
      if found then return (← item.replaceItemInObject key newitem) :: next
      return item.addItemToObject key newitem :: next

/-- `copyItem`. -/
def copyItem
    (targetJSONObj : List CJSON)
    (targetKey : CString)
    (sourceJSONObj : CJSON)
    (sourceKey : CString) : Except AttributeError (Bool × List CJSON) := do
  match sourceJSONObj.getObjectItem sourceKey with
  | [] => return (false, targetJSONObj)
  | item :: _ =>
      return (true, ← install targetJSONObj targetKey (← copyOf item))

/-- The loop of `mergeJSONObjects`. -/
def mergeItems (targetJSONObj : List CJSON) :
    List CJSON → Except AttributeError (List CJSON)
  | [] => .ok targetJSONObj
  | item :: next =>
      match item.string with
      -- `continue` comes back to the same item.
      | none => .error .endless
      | some string =>
          if string.val = [] then .error .endless
          else do mergeItems (← install targetJSONObj string (← copyOf item)) next

/-- A turn of the loop that goes on: the item has a name that is not empty, and a copy
of it is installed. -/
theorem of_mergeItems_cons_eq_ok
    {target next result : List CJSON}
    {item : CJSON}
    (called : mergeItems target (item :: next) = .ok result) :
    ∃ key newitem installed, item.string = some key ∧ key.val ≠ [] ∧
      copyOf item = .ok newitem ∧ install target key newitem = .ok installed ∧
      mergeItems installed next = .ok result := by
  unfold mergeItems at called
  cases present : item.string with
  | none => simp [present] at called
  | some key =>
      simp only [present] at called
      by_cases empty : key.val = []
      · rw [if_pos empty] at called
        cases called
      · rw [if_neg empty] at called
        obtain ⟨newitem, copied, called⟩ := Outcome.bind_eq_ok_iff.mp called
        obtain ⟨chain, installed, called⟩ := Outcome.bind_eq_ok_iff.mp called
        exact ⟨key, newitem, chain, rfl, empty, copied, installed, called⟩

/-- `mergeJSONObjects`; the source is an item that is no part of the target. -/
def mergeJSONObjects
    (targetJSONObj sourceJSONObj : List CJSON) :
    Except AttributeError (Bool × List CJSON) :=
  match targetJSONObj, sourceJSONObj with
  | [], _ => .ok (false, [])
  | item :: next, [] => .ok (false, item :: next)
  | item :: next, source :: _ => do
      return (true, ← mergeItems (item :: next) source.child)

/-! ## Parameters -/

/-- One turn of the loops of `addParamsMap`: a parameter that is there, under a
name that may differ in case, is updated, and else a new one is added. -/
def addParam
    (create : α → CJSON)
    (update : α → CJSON → Except AttributeError CJSON)
    (args : CJSON)
    (entry : Bytes × α) : Except AttributeError CJSON := do
  let key := CString.ofBuffer entry.1
  match args.indexLike key with
  | none => return args.addItemToObject key (some (create entry.2))
  | some which =>
      match args.child[which]? with
      | none => throw .nullItem
      | some tmpObj =>
          return args.replaceItemInArray which (← update entry.2 tmpObj)

/-- The loops of `addParamsMap`. -/
def addParams
    (create : α → CJSON)
    (update : α → CJSON → Except AttributeError CJSON) :
    CJSON → List (Bytes × α) → Except AttributeError CJSON
  | args, [] => .ok args
  | args, entry :: entries => do
      addParams create update (← addParam create update args entry) entries

/-- Both forms of `addParamsMap`; the map is the list of its entries. -/
def addParamsMap
    (create : α → CJSON)
    (update : α → CJSON → Except AttributeError CJSON)
    (RPCObj : List CJSON)
    (Args : List (Bytes × α)) : Except AttributeError (Bool × List CJSON) :=
  match RPCObj with
  | [] => .ok (false, [])
  | item :: next => do
      let params := keyOf ['p', 'a', 'r', 'a', 'm', 's']
      if ← doesAttributeExist (item :: next) params.val false then
        match item.indexLike params with
        | none => if Args = [] then return (true, item :: next) else throw .nullItem
        | some which =>
            match item.child[which]? with
            | none => throw .nullItem
            | some args =>
                let args ← addParams create update args Args
                return (true, item.replaceItemInArray which args :: next)
      else
        let args ← addParams create update
          { createObject with string := some params } Args
        return (true, item.addItemToArray args :: next)

/-- `addParamsMap(map<string, string>)`: the text is copied over the old one. -/
def addParamsMapString :
    List CJSON → List (Bytes × Bytes) →
      Except AttributeError (Bool × List CJSON) :=
  addParamsMap (fun value => createString (CString.ofBuffer value))
    fun value tmpObj =>
      match tmpObj.valuestring with
      | none => .error .nullString
      | some _ =>
          .ok { tmpObj with valuestring := some (CString.ofBuffer value) }

/-- `addParamsMap(map<string, double>)`. -/
def addParamsMapDouble :
    List CJSON → List (Bytes × Rat) →
      Except AttributeError (Bool × List CJSON) :=
  addParamsMap createNumber fun value tmpObj =>
    .ok { tmpObj with valuedouble := value }

end CJSON
end ProtobufSandbox
