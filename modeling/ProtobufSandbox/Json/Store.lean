import ProtobufSandbox.Foundation.LinkedChain
import ProtobufSandbox.Json.Attributes

/-!
# Items in memory

The items of a tree as nodes at addresses, linked as `struct cJSON` links them, and
`setAttributeValue_Int` on these. A node that is deleted is removed, and it is an
error to read, write or delete it afterwards. The strings of a node are a part of
it; of the names that are overwritten without being freed only the texts are kept.
Loops along links spend fuel.
-/

namespace ProtobufSandbox

/-- What a `cJSON *` that is not null denotes. -/
abbrev Address := Nat

/-- `struct cJSON`. -/
structure Node where
  next : Option Address
  prev : Option Address
  child : Option Address
  type : CJSONType
  valuestring : Option CString
  valueint : Int32
  valuedouble : Rat
  string : Option CString

/-- The nodes in memory by their addresses; a removed node leaves a gap. The lost names
are in memory as well, but no pointer leads to them any more. -/
structure Store where
  nodes : List (Option Node)
  lostNames : List CString

/-- How a call on a store can fail to return. -/
inductive StoreError where
  /-- A node is used that is not in memory any more. -/
  | removedNode
  /-- A null pointer is dereferenced. -/
  | nullPointer
  /-- A null name is compared. -/
  | nullName
  /-- The fuel is spent. -/
  | outOfFuel
  deriving DecidableEq

namespace Node

/-- `cJSON_New_Item`. -/
def newItem : Node where
  next := none
  prev := none
  child := none
  type := .false
  valuestring := none
  valueint := 0
  valuedouble := 0
  string := none

/-- `cJSON_CreateNumber`. -/
def createNumber (num : Rat) : Node :=
  { newItem with type := .number, valuedouble := num, valueint := CJSON.toInt num }

/-- `cJSON_CreateNull`. -/
def createNull : Node := { newItem with type := .null }

/-- `cJSON_CreateTrue`. -/
def createTrue : Node := { newItem with type := .true }

/-- `cJSON_CreateFalse`. -/
def createFalse : Node := { newItem with type := .false }

/-- `cJSON_CreateBool`. -/
def createBool (b : Bool) : Node :=
  { newItem with type := if b then .true else .false }

/-- `cJSON_CreateString`. -/
def createString (string : CString) : Node :=
  { newItem with type := .string, valuestring := some string }

/-- `cJSON_CreateArray`. -/
def createArray : Node := { newItem with type := .array }

/-- `cJSON_CreateObject`. -/
def createObject : Node := { newItem with type := .object }

end Node

namespace Store

/-! ## Memory -/

/-- The node at an address, if it is in memory. -/
def node (store : Store) (address : Address) : Option Node :=
  store.nodes[address]?.join

/-- An address that was never used. -/
def unused (store : Store) : Address :=
  store.nodes.length

/-- `cJSON_malloc`: a new node at that address. -/
def create (store : Store) (new : Node) : Store :=
  { store with nodes := store.nodes ++ [some new] }

/-- The node at an address changes. -/
def modify (store : Store) (address : Address) (change : Node → Node) : Store :=
  { store with nodes := store.nodes.modify address (Option.map change) }

/-- The node at an address is removed. -/
def remove (store : Store) (address : Address) : Store :=
  { store with nodes := store.nodes.set address none }

/-- The pointer to a name is overwritten, and the name is not freed. -/
def lose (store : Store) (name : Option CString) : Store :=
  { store with lostNames := store.lostNames ++ name.toList }

/-- A node is read. -/
def load (store : Store) (address : Address) : Except StoreError Node :=
  match store.node address with
  | none => .error .removedNode
  | some node => .ok node

/-- A node is written. -/
def write
    (store : Store)
    (address : Address)
    (change : Node → Node) : Except StoreError Store := do
  let _ ← store.load address
  return store.modify address change

/-- A node is written if the pointer to it is not null. -/
def writeIf
    (store : Store)
    (address : Option Address)
    (change : Node → Node) : Except StoreError Store :=
  match address with
  | none => .ok store
  | some address => store.write address change

/-- A node is written through a pointer. -/
def writeThrough
    (store : Store)
    (address : Option Address)
    (change : Node → Node) : Except StoreError Store :=
  match address with
  | none => .error .nullPointer
  | some address => store.write address change

/-- `cJSON_free` of a node and its strings. -/
def free (store : Store) (address : Address) : Except StoreError Store := do
  let _ ← store.load address
  return store.remove address

/-- The links of a node. -/
def links (store : Store) (address : Address) : Option (LinkedChain.Links Address) :=
  (store.node address).map fun node => ⟨node.prev, node.next⟩

@[simp] theorem node_modify
    (store : Store)
    (address other : Address)
    (change : Node → Node) :
    (store.modify address change).node other =
      if address = other then (store.node other).map change else store.node other := by
  unfold node modify
  rw [List.getElem?_modify]
  by_cases same : address = other
  · rw [if_pos same]
    cases there : store.nodes[other]? with
    | none => simp
    | some present => simp [same]
  · rw [if_neg same]
    cases there : store.nodes[other]? with
    | none => simp
    | some present => simp [same]

@[simp] theorem node_remove (store : Store) (address other : Address) :
    (store.remove address).node other =
      if address = other then none else store.node other := by
  unfold node remove
  rw [List.getElem?_set]
  by_cases same : address = other
  · rw [if_pos same, if_pos same]
    split <;> rfl
  · rw [if_neg same, if_neg same]

@[simp] theorem node_create (store : Store) (new : Node) (other : Address) :
    (store.create new).node other =
      if store.unused = other then some new else store.node other := by
  unfold node create unused
  rw [List.getElem?_append]
  by_cases same : store.nodes.length = other
  · rw [if_pos same, if_neg (Nat.not_lt.mpr (Nat.le_of_eq same)), ← same, Nat.sub_self]
    rfl
  · rw [if_neg same]
    split
    · rfl
    · next notBefore =>
        have before : store.nodes.length ≤ other := Nat.le_of_not_lt notBefore
        have behind : [some new].length ≤ other - store.nodes.length :=
          Nat.sub_pos_of_lt (Nat.lt_of_le_of_ne before same)
        rw [List.getElem?_eq_none before, List.getElem?_eq_none behind]

@[simp] theorem node_lose (store : Store) (name : Option CString) (address : Address) :
    (store.lose name).node address = store.node address :=
  rfl

/-- Nothing was ever at an unused address. -/
theorem node_unused (store : Store) : store.node store.unused = none := by
  rw [node, unused, List.getElem?_eq_none (Nat.le_refl _)]
  rfl

section Present

variable {store : Store} {address : Address} {present : Node}

theorem load_of_node (there : store.node address = some present) :
    store.load address = .ok present := by
  rw [load, there]

theorem write_of_node
    (there : store.node address = some present)
    (change : Node → Node) :
    store.write address change = .ok (store.modify address change) := by
  rw [write, load_of_node there]
  rfl

theorem free_of_node (there : store.node address = some present) :
    store.free address = .ok (store.remove address) := by
  rw [free, load_of_node there]
  rfl

end Present

/-! ## Items -/

/-- `cJSON_Delete`. -/
def delete : Nat → Option Address → Store → Except StoreError Store
  | 0, _, _ => .error .outOfFuel
  | _ + 1, none, store => .ok store
  | fuel + 1, some c, store => do
      let node ← store.load c
      let store ← delete fuel node.child store
      let store ← store.free c
      delete fuel node.next store

/-- The last item of a chain, where the loop of `cJSON_AddItemToArray` stops. -/
def lastItem : Nat → Address → Store → Except StoreError Address
  | 0, _, _ => .error .outOfFuel
  | fuel + 1, c, store => do
      match (← store.load c).next with
      | none => return c
      | some next => lastItem fuel next store

/-- `suffix_object`. -/
def suffixObject (prev item : Address) (store : Store) : Except StoreError Store := do
  let store ← store.write prev ({ · with next := some item })
  store.write item ({ · with prev := some prev })

/-- `cJSON_AddItemToArray`. -/
def addItemToArray
    (fuel : Nat)
    (array item : Address)
    (store : Store) : Except StoreError Store := do
  match (← store.load array).child with
  | none => store.write array ({ · with child := some item })
  | some c => suffixObject (← lastItem fuel c store) item store

/-- `cJSON_AddItemToObject`. -/
def addItemToObject
    (fuel : Nat)
    (object : Address)
    (string : CString)
    (item : Address)
    (store : Store) : Except StoreError Store := do
  let store ← store.write item ({ · with string := some string })
  addItemToArray fuel object item store

/-- The loop of `cJSON_ReplaceItemInArray`. -/
def itemAt : Nat → Option Address → Store → Except StoreError (Option Address)
  | _, none, _ => .ok none
  | 0, some c, _ => .ok (some c)
  | which + 1, some c, store => do
      itemAt which (← store.load c).next store

/-- The link in front of an item `c`: the `child` of the array for its first item, and
else the `next` of the previous one. -/
def linkFront
    (array c : Address)
    (prev : Option Address)
    (newitem : Address)
    (store : Store) : Except StoreError Store := do
  if (← store.load array).child = some c then
    store.write array ({ · with child := some newitem })
  else store.writeThrough prev ({ · with next := some newitem })

/-- What `cJSON_ReplaceItemInArray` writes: the new item takes over the links of the
item `c`, its neighbours link to the new one, and `c` links to nothing. -/
def relink
    (array c newitem : Address)
    (store : Store) : Except StoreError Store := do
  let item ← store.load c
  let store ← store.write newitem ({ · with next := item.next, prev := item.prev })
  let store ← store.writeIf item.next ({ · with prev := some newitem })
  let store ← linkFront array c item.prev newitem store
  store.write c ({ · with next := none, prev := none })

/-- `cJSON_ReplaceItemInArray`. -/
def replaceItemInArray
    (fuel : Nat)
    (array : Address)
    (which : Nat)
    (newitem : Address)
    (store : Store) : Except StoreError Store := do
  match ← itemAt which (← store.load array).child store with
  | none => return store
  | some c => delete fuel (some c) (← relink array c newitem store)

/-- The loop of `cJSON_ReplaceItemInObject`, with its counter. -/
def indexLike
    (string : CString) :
    Nat → Nat → Option Address → Store → Except StoreError (Option Nat)
  | 0, _, _, _ => .error .outOfFuel
  | _ + 1, _, none, _ => .ok none
  | fuel + 1, i, some c, store => do
      let node ← store.load c
      if strcasecmp node.string (some string) = 0 then return some i
      indexLike string fuel (i + 1) node.next store

/-- `cJSON_ReplaceItemInObject`. A name that the new item has is not freed. -/
def replaceItemInObject
    (fuel : Nat)
    (object : Address)
    (string : CString)
    (newitem : Address)
    (store : Store) : Except StoreError Store := do
  match ← indexLike string fuel 0 (← store.load object).child store with
  | none => return store
  | some i =>
      let lost := (← store.load newitem).string
      let store ← (store.lose lost).write newitem ({ · with string := some string })
      replaceItemInArray fuel object i newitem store

/-- The loop of `cJSON_GetArraySize`. -/
def countItems : Nat → Nat → Option Address → Store → Except StoreError Nat
  | 0, _, _, _ => .error .outOfFuel
  | _ + 1, i, none, _ => .ok i
  | fuel + 1, i, some c, store => do
      countItems fuel (i + 1) (← store.load c).next store

/-- `cJSON_GetArraySize`. -/
def getArraySize (fuel : Nat) (array : Address) (store : Store) : Except StoreError Nat := do
  countItems fuel 0 (← store.load array).child store

/-- `cJSON_GetArrayItem`; an index that is negative counts as zero. -/
def getArrayItem
    (array : Address)
    (item : Int)
    (store : Store) : Except StoreError (Option Address) := do
  itemAt item.toNat (← store.load array).child store

/-- The loop of `cJSON_GetObjectItem`. -/
def itemLike
    (string : CString) :
    Nat → Option Address → Store → Except StoreError (Option Address)
  | 0, _, _ => .error .outOfFuel
  | _ + 1, none, _ => .ok none
  | fuel + 1, some c, store => do
      let node ← store.load c
      if strcasecmp node.string (some string) = 0 then return some c
      itemLike string fuel node.next store

/-- `cJSON_GetObjectItem`. -/
def getObjectItem
    (fuel : Nat)
    (object : Address)
    (string : CString)
    (store : Store) : Except StoreError (Option Address) := do
  itemLike string fuel (← store.load object).child store

/-- An array whose first item is `c` points to the item behind it. -/
def passFirst (array c : Address) (store : Store) : Except StoreError Store := do
  let item ← store.load c
  if (← store.load array).child = some c then
    store.write array ({ · with child := item.next })
  else return store

/-- What `cJSON_DetachItemFromArray` writes: the neighbours of the item `c` link to each
other, the array to the item behind a first one, and `c` links to nothing. -/
def unlink (array c : Address) (store : Store) : Except StoreError Store := do
  let item ← store.load c
  let store ← store.writeIf item.prev ({ · with next := item.next })
  let item ← store.load c
  let store ← store.writeIf item.next ({ · with prev := item.prev })
  let store ← passFirst array c store
  store.write c ({ · with next := none, prev := none })

/-- `cJSON_DetachItemFromArray`; an index that is negative counts as zero. -/
def detachItemFromArray
    (array : Address)
    (which : Int)
    (store : Store) : Except StoreError (Option Address × Store) := do
  match ← itemAt which.toNat (← store.load array).child store with
  | none => return (none, store)
  | some c => return (some c, ← unlink array c store)

/-- `cJSON_DeleteItemFromArray`. -/
def deleteItemFromArray
    (fuel : Nat)
    (array : Address)
    (which : Int)
    (store : Store) : Except StoreError Store := do
  let detached ← detachItemFromArray array which store
  delete fuel detached.1 detached.2

/-- `cJSON_DetachItemFromObject`. -/
def detachItemFromObject
    (fuel : Nat)
    (object : Address)
    (string : CString)
    (store : Store) : Except StoreError (Option Address × Store) := do
  match ← indexLike string fuel 0 (← store.load object).child store with
  | none => return (none, store)
  | some i => detachItemFromArray object i store

/-- `cJSON_DeleteItemFromObject`. -/
def deleteItemFromObject
    (fuel : Nat)
    (object : Address)
    (string : CString)
    (store : Store) : Except StoreError Store := do
  let detached ← detachItemFromObject fuel object string store
  delete fuel detached.1 detached.2

/-- An item is linked behind the item `p` of an array, or as its first one. -/
def linkBehind
    (array : Address)
    (p : Option Address)
    (n : Address)
    (store : Store) : Except StoreError Store :=
  match p with
  | none => store.write array ({ · with child := some n })
  | some p => suffixObject p n store

/-- The loop of `cJSON_CreateIntArray` and its siblings. -/
def createItems
    (array : Address) :
    Option Address → List Node → Store → Except StoreError Store
  | _, [], store => .ok store
  | p, new :: rest, store => do
      let n := store.unused
      let store ← linkBehind array p n (store.create new)
      createItems array (some n) rest store

/-- A new array with new items. -/
def createArrayOf (items : List Node) (store : Store) : Except StoreError (Address × Store) := do
  let array := store.unused
  return (array, ← createItems array none items (store.create Node.createArray))

/-- `cJSON_CreateIntArray`. -/
def createIntArray (numbers : List Int32) : Store → Except StoreError (Address × Store) :=
  createArrayOf (numbers.map fun number => Node.createNumber number.toInt)

/-- `cJSON_CreateFloatArray` and `cJSON_CreateDoubleArray`. -/
def createDoubleArray (numbers : List Rat) : Store → Except StoreError (Address × Store) :=
  createArrayOf (numbers.map Node.createNumber)

/-- `cJSON_CreateStringArray`. -/
def createStringArray (strings : List CString) : Store → Except StoreError (Address × Store) :=
  createArrayOf (strings.map Node.createString)

mutual

/-- `cJSON_Duplicate`, with the address of the copy. -/
def duplicate : Nat → Address → Bool → Store → Except StoreError (Address × Store)
  | 0, _, _, _ => .error .outOfFuel
  | fuel + 1, item, recurse, store => do
      let node ← store.load item
      let newitem := store.unused
      let store := store.create { node with next := none, prev := none, child := none }
      if recurse then
        return (newitem, ← duplicateChildren fuel newitem none node.child store)
      return (newitem, store)

/-- The loop of `cJSON_Duplicate`. -/
def duplicateChildren :
    Nat → Address → Option Address → Option Address → Store → Except StoreError Store
  | 0, _, _, _, _ => .error .outOfFuel
  | _ + 1, _, _, none, store => .ok store
  | fuel + 1, newitem, nptr, some cptr, store => do
      let copied ← duplicate fuel cptr true store
      let store ← linkBehind newitem nptr copied.1 copied.2
      duplicateChildren fuel newitem (some copied.1) (← store.load cptr).next store

end

/-! ## Attributes -/

/-- The loop of `setAttributeValue_Int`: the first number with exactly the key. -/
def findSubitem
    (key : Bytes) :
    Nat → Option Address → Store → Except StoreError (Option Address)
  | 0, _, _ => .error .outOfFuel
  | _ + 1, none, _ => .ok none
  | fuel + 1, some subitem, store => do
      let node ← store.load subitem
      match node.string with
      | none => throw .nullName
      | some string =>
          if key = string.val ∧ node.type = .number then return some subitem
          findSubitem key fuel node.next store

/-- Where that loop starts. -/
def firstSubitem (JSONObj : Address) (node : Node) : Option Address :=
  match node.type with
  | .number => some JSONObj
  | .object => node.child
  | .false | .true | .null | .string | .array => node.next

/-- `setAttributeValue_Int` up to its call of `cJSON_ReplaceItemInObject`, with the
item that the loop found; without one a new item is added. -/
def replaceSubitem
    (fuel : Nat)
    (JSONObj : Address)
    (key : Bytes)
    (valueint : Int32)
    (store : Store) : Except StoreError (Option Address × Store) := do
  let newitem := store.unused
  match ← findSubitem key fuel (firstSubitem JSONObj (← store.load JSONObj)) store with
  | none =>
      let store := store.create (Node.createNumber valueint.toInt)
      return (none, ← addItemToObject fuel JSONObj (CString.ofBuffer key) newitem store)
  | some subitem =>
      match (← store.load subitem).string with
      | none => throw .nullName
      | some string =>
          let store := store.create (Node.createNumber valueint.toInt)
          return (some subitem,
            ← replaceItemInObject fuel JSONObj string newitem store)

/-- `setAttributeValue_Int`. -/
def setAttributeValueInt
    (fuel : Nat)
    (JSONObj : Address)
    (key : Bytes)
    (valueint : Int32)
    (store : Store) : Except StoreError (Bool × Store) := do
  match ← replaceSubitem fuel JSONObj key valueint store with
  | (none, store) => return (true, store)
  | (some subitem, store) =>
      return (true, ← store.write subitem ({ · with valueint := valueint }))

end Store
end ProtobufSandbox
