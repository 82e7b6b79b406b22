import ProtobufSandbox.Json.StoreForest

/-!
# Sessions on forests

What a client of `cJSON` does with items: it creates them, links them into arrays and
objects, detaches, replaces, copies and deletes them, in any order. On trees these calls
are changes of lists of children. As long as a client links and deletes only items that
it has the only pointer to, and no item below itself, the memory does what the trees do.
-/

namespace ProtobufSandbox

open LinkedForest Cells

/-- What a new item is created as. -/
inductive NewItem
  | null
  | true
  | false
  | bool (b : Bool)
  | number (num : Rat)
  | string (string : CString)
  | array
  | object

namespace NewItem

/-- The node that is created. -/
def node : NewItem → Node
  | .null => Node.createNull
  | .true => Node.createTrue
  | .false => Node.createFalse
  | .bool b => Node.createBool b
  | .number num => Node.createNumber num
  | .string text => Node.createString text
  | .array => Node.createArray
  | .object => Node.createObject

/-- A new item is linked to nothing. -/
theorem node_eq (new : NewItem) :
    new.node = new.node.fields.node ⟨none, none, none⟩ := by
  cases new <;> rfl

end NewItem

/-- A call on items. -/
inductive ItemCall
  | create (new : NewItem)
  | createIntArray (numbers : List Int32)
  | createDoubleArray (numbers : List Rat)
  | createStringArray (strings : List CString)
  | duplicate (item : Address) (recurse : Bool)
  | getArraySize (array : Address)
  | getArrayItem (array : Address) (item : Int)
  | getObjectItem (object : Address) (string : CString)
  | addItemToArray (array item : Address)
  | addItemToObject (object : Address) (string : CString) (item : Address)
  | detachItemFromArray (array : Address) (which : Int)
  | detachItemFromObject (object : Address) (string : CString)
  | deleteItemFromArray (array : Address) (which : Int)
  | deleteItemFromObject (object : Address) (string : CString)
  | replaceItemInArray (array : Address) (which : Int) (newitem : Address)
  | replaceItemInObject (object : Address) (string : CString) (newitem : Address)
  | delete (item : Address)

/-- What a call answers. -/
inductive ItemAnswer
  | none
  | pointer (item : Option Address)
  | size (i : Nat)

namespace Store

/-- More turns than a loop along the links of trees takes. -/
def fuel (store : Store) : Nat :=
  2 * store.unused + 1

/-- A call on a store. -/
def call (store : Store) : ItemCall → Except StoreError (ItemAnswer × Store)
  | .create new => .ok (.pointer store.unused, store.create new.node)
  | .createIntArray numbers => do
      let created ← createIntArray numbers store
      return (.pointer created.1, created.2)
  | .createDoubleArray numbers => do
      let created ← createDoubleArray numbers store
      return (.pointer created.1, created.2)
  | .createStringArray strings => do
      let created ← createStringArray strings store
      return (.pointer created.1, created.2)
  | .duplicate item recurse => do
      let copied ← duplicate store.fuel item recurse store
      return (.pointer copied.1, copied.2)
  | .getArraySize array => return (.size (← getArraySize store.fuel array store), store)
  | .getArrayItem array item => return (.pointer (← getArrayItem array item store), store)
  | .getObjectItem object string =>
      return (.pointer (← getObjectItem store.fuel object string store), store)
  | .addItemToArray array item =>
      return (.none, ← addItemToArray store.fuel array item store)
  | .addItemToObject object string item =>
      return (.none, ← addItemToObject store.fuel object string item store)
  | .detachItemFromArray array which => do
      let detached ← detachItemFromArray array which store
      return (.pointer detached.1, detached.2)
  | .detachItemFromObject object string => do
      let detached ← detachItemFromObject store.fuel object string store
      return (.pointer detached.1, detached.2)
  | .deleteItemFromArray array which =>
      return (.none, ← deleteItemFromArray store.fuel array which store)
  | .deleteItemFromObject object string =>
      return (.none, ← deleteItemFromObject store.fuel object string store)
  | .replaceItemInArray array which newitem =>
      return (.none, ← replaceItemInArray store.fuel array which.toNat newitem store)
  | .replaceItemInObject object string newitem =>
      return (.none, ← replaceItemInObject store.fuel object string newitem store)
  | .delete item => return (.none, ← delete store.fuel (some item) store)

/-- Calls one after another. -/
def calls (store : Store) : List ItemCall → Except StoreError (List ItemAnswer × Store)
  | [] => .ok ([], store)
  | call :: rest => do
      let (reply, store) ← store.call call
      let (replies, store) ← store.calls rest
      return (reply :: replies, store)

end Store

/-- The trees that a client has pointers to, the address of the next new item, and the
names that are lost. -/
structure Forest where
  unused : Address
  roots : List PlacedItem
  lostNames : List CString

namespace Forest

/-- The trees without the one whose root is the item, and that one. -/
def takeRoot (item : Address) : List PlacedItem → Option (PlacedItem × List PlacedItem)
  | [] => none
  | root :: roots =>
      if root.address = item then some (root, roots)
      else (takeRoot item roots).map fun taken => (taken.1, root :: taken.2)

/-- A new tree. -/
def create (forest : Forest) (root : PlacedItem) : ItemAnswer × Forest :=
  (.pointer root.address,
    { forest with unused := forest.unused + root.size, roots := root :: forest.roots })

/-- An array of new items. -/
def createArrayOf (forest : Forest) (new : List ItemFields) : ItemAnswer × Forest :=
  forest.create
    ⟨forest.unused, Node.createArray.fields, Store.newItems (forest.unused + 1) new⟩

/-- Other trees, with other children of an item. -/
def link
    (forest : Forest)
    (array : Address)
    (change : List PlacedItem → List PlacedItem)
    (roots : List PlacedItem) : Forest :=
  { forest with roots := graft array change roots }

/-- An item with other children. -/
def change
    (forest : Forest)
    (array : Address)
    (change : List PlacedItem → List PlacedItem) : Forest :=
  forest.link array change forest.roots

/-- A name is lost. -/
def lose (forest : Forest) (name : Option CString) : Forest :=
  { forest with lostNames := forest.lostNames ++ name.toList }

/-- An item with other children, next to trees that are linked to nothing. -/
def detach
    (forest : Forest)
    (array : Address)
    (change : List PlacedItem → List PlacedItem)
    (detached : Option PlacedItem) : Forest :=
  { forest with roots := detached.toList ++ graft array change forest.roots }

/-- What a call does to the trees. A client may link or delete a tree by its root only,
and may not link it below itself. -/
def perform (forest : Forest) : ItemCall → Option (ItemAnswer × Forest)
  | .create new => some (forest.create ⟨forest.unused, new.node.fields, []⟩)
  | .createIntArray numbers =>
      some (forest.createArrayOf
        (numbers.map fun number => (Node.createNumber number.toInt).fields))
  | .createDoubleArray numbers =>
      some (forest.createArrayOf (numbers.map fun number => (Node.createNumber number).fields))
  | .createStringArray strings =>
      some (forest.createArrayOf (strings.map fun string => (Node.createString string).fields))
  | .duplicate item recurse => do
      let tree ← find item forest.roots
      return forest.create
        (if recurse then PlacedItem.copy forest.unused tree
          else ⟨forest.unused, tree.data, []⟩)
  | .getArraySize array => do
      let tree ← find array forest.roots
      return (.size tree.child.length, forest)
  | .getArrayItem array item => do
      let tree ← find array forest.roots
      return (.pointer (tree.child[item.toNat]?.map Tree.address), forest)
  | .getObjectItem object string => do
      let tree ← find object forest.roots
      return (.pointer ((tree.child.find? (PlacedItem.namedLike string)).map Tree.address),
        forest)
  | .addItemToArray array item => do
      let (root, roots) ← takeRoot item forest.roots
      let _ ← find array roots
      return (.none, forest.link array (· ++ [root]) roots)
  | .addItemToObject object string item => do
      let (root, roots) ← takeRoot item forest.roots
      let _ ← find object roots
      return (.none, forest.link object (· ++ [root.rename string]) roots)
  | .detachItemFromArray array which => do
      let tree ← find array forest.roots
      let detached := tree.child[which.toNat]?
      return (.pointer (detached.map Tree.address),
        forest.detach array (·.eraseIdx which.toNat) detached)
  | .detachItemFromObject object string => do
      let tree ← find object forest.roots
      let detached := tree.child.find? (PlacedItem.namedLike string)
      return (.pointer (detached.map Tree.address),
        forest.detach object (·.eraseP (PlacedItem.namedLike string)) detached)
  | .deleteItemFromArray array which => do
      let _ ← find array forest.roots
      return (.none, forest.change array (·.eraseIdx which.toNat))
  | .deleteItemFromObject object string => do
      let _ ← find object forest.roots
      return (.none, forest.change object (·.eraseP (PlacedItem.namedLike string)))
  | .replaceItemInArray array which newitem => do
      let (root, roots) ← takeRoot newitem forest.roots
      let tree ← find array roots
      match tree.child[which.toNat]? with
      | none => return (.none, forest)
      | some _ => return (.none, forest.link array (·.set which.toNat root) roots)
  | .replaceItemInObject object string newitem => do
      let (root, roots) ← takeRoot newitem forest.roots
      let tree ← find object roots
      match tree.child.findIdx? (PlacedItem.namedLike string) with
      | none => return (.none, forest)
      | some which =>
          return (.none,
            (forest.lose root.data.string).link object (·.set which (root.rename string)) roots)
  | .delete item => do
      let (_, roots) ← takeRoot item forest.roots
      return (.none, { forest with roots := roots })

/-- Calls one after another. -/
def performs (forest : Forest) : List ItemCall → Option (List ItemAnswer × Forest)
  | [] => some ([], forest)
  | call :: rest => do
      let (reply, forest) ← forest.perform call
      let (replies, forest) ← forest.performs rest
      return (reply :: replies, forest)

/-! ## Trees in memory -/

theorem of_takeRoot
    {item : Address}
    {roots others : List PlacedItem}
    {root : PlacedItem}
    (taken : takeRoot item roots = some (root, others)) :
    root.address = item ∧ roots.Perm (root :: others) := by
  induction roots generalizing others with
  | nil => cases taken
  | cons first roots inductionHypothesis =>
      rw [takeRoot] at taken
      split at taken
      · next here =>
          cases taken
          exact ⟨here, .refl _⟩
      · obtain ⟨⟨root', others'⟩, takenBehind, same⟩ := Option.map_eq_some_iff.mp taken
        cases same
        obtain ⟨isItem, behind⟩ := inductionHypothesis takenBehind
        exact ⟨isItem, (behind.cons first).trans (.swap _ _ _)⟩

end Forest

namespace Store

/-- The memory consists of the trees. -/
def Represents (store : Store) (forest : Forest) : Prop :=
  Consists forest.lostNames forest.unused (rootCells ItemFields.node forest.roots) store

section Represents

variable {store : Store} {forest : Forest}

/-- The nodes of the array and its items, next to all others. -/
theorem exists_arrayCells
    {array : Address}
    {roots : List PlacedItem}
    {tree : PlacedItem}
    (found : find array roots = some tree) :
    ∃ prev next rest, ∀ change : List PlacedItem → List PlacedItem,
      (rootCells ItemFields.node (graft array change roots)).Perm
        (arrayCells array tree.data prev next (change tree.child) ++ rest) :=
  exists_rootContext ItemFields.node roots found

theorem Represents.fuel_eq (represents : store.Represents forest) :
    store.fuel = 2 * forest.unused + 1 := by
  rw [fuel, Consists.unused represents]

theorem Represents.large (represents : store.Represents forest) :
    forest.unused < store.fuel := by
  rw [represents.fuel_eq]
  exact Nat.lt_succ_of_le (Nat.le_mul_of_pos_left _ Nat.two_pos)

/-- A call answers like the one on trees, and the memory consists of these then. -/
def Answers
    (answer : ItemAnswer × Forest)
    (result : Except StoreError (ItemAnswer × Store)) : Prop :=
  ∃ after, result = .ok (answer.1, after) ∧ after.Represents answer.2

/-- A new tree next to the others. -/
theorem answers_create
    {root : PlacedItem}
    {result : Except StoreError (Address × Store)}
    (created : Returns root.address forest.lostNames (forest.unused + root.size)
      (cells ItemFields.node none none root ++ rootCells ItemFields.node forest.roots)
      result) :
    Answers (forest.create root)
      (result >>= fun created => .ok (.pointer created.1, created.2)) := by
  obtain ⟨after, rfl, consists⟩ := created
  exact ⟨after, rfl, consists⟩

theorem Represents.createArrayOf
    {α : Type}
    {items : List α}
    {create : α → Node}
    (represents : store.Represents forest)
    (unlinked : ∀ item, create item = (create item).fields.node ⟨none, none, none⟩) :
    Answers (forest.createArrayOf (items.map fun item => (create item).fields))
      (Store.createArrayOf (items.map create) store >>= fun created =>
        .ok (.pointer created.1, created.2)) := by
  have created := Consists.createArrayOf represents
    (items.map fun item => (create item).fields)
  have same : (items.map fun item => (create item).fields).map
      (fun own => own.node ⟨none, none, none⟩) = items.map create := by
    rw [List.map_map]
    congr 1
    funext item
    exact (unlinked item).symm
  rw [same] at created
  apply answers_create
  rw [PlacedItem.size, sizeAll_newItems, ← Nat.add_assoc, Nat.add_right_comm]
  exact created

section Array

variable {array : Address} {tree : PlacedItem}

theorem Represents.exists_array
    (represents : store.Represents forest)
    (found : find array forest.roots = some tree) :
    ∃ prev next rest,
      Consists forest.lostNames forest.unused
        (arrayCells array tree.data prev next tree.child ++ rest) store ∧
      ∀ change : List PlacedItem → List PlacedItem,
        (rootCells ItemFields.node (graft array change forest.roots)).Perm
          (arrayCells array tree.data prev next (change tree.child) ++ rest) := by
  obtain ⟨prev, next, rest, same⟩ := exists_arrayCells found
  refine ⟨prev, next, rest, ?_, same⟩
  have unchanged := same id
  rw [graft_id] at unchanged
  exact Consists.perm represents unchanged

theorem Represents.exists_arrayAndRoot
    {item : Address}
    {root : PlacedItem}
    {roots : List PlacedItem}
    (represents : store.Represents forest)
    (taken : Forest.takeRoot item forest.roots = some (root, roots))
    (found : find array roots = some tree) :
    ∃ prev next rest,
      Consists forest.lostNames forest.unused
        (arrayCells array tree.data prev next tree.child ++
          (cells ItemFields.node none none root ++ rest)) store ∧
      ∀ change : List PlacedItem → List PlacedItem,
        (rootCells ItemFields.node (graft array change roots)).Perm
          (arrayCells array tree.data prev next (change tree.child) ++ rest) := by
  obtain ⟨prev, next, rest, same⟩ := exists_arrayCells found
  refine ⟨prev, next, rest, ?_, same⟩
  have unchanged := same id
  rw [graft_id] at unchanged
  have split := (rootCells_perm ItemFields.node (Forest.of_takeRoot taken).2).trans
    (unchanged.append_left _)
  exact (Consists.perm represents split).perm (List.perm_append_comm_assoc _ _ _)

theorem Represents.duplicate
    (represents : store.Represents forest)
    (found : find array forest.roots = some tree)
    (recurse : Bool) :
    Answers
      (forest.create
        (if recurse then PlacedItem.copy forest.unused tree
          else ⟨forest.unused, tree.data, []⟩))
      (Store.duplicate store.fuel array recurse store >>= fun copied =>
        .ok (.pointer copied.1, copied.2)) := by
  obtain ⟨prev, next, rest, consists, same⟩ := represents.exists_array found
  have unchanged := same id
  rw [graft_id] at unchanged
  obtain rfl := find_address forest.roots found
  have isTree : arrayCells tree.address tree.data prev next tree.child =
      cells ItemFields.node prev next tree :=
    (cells_eq ItemFields.node prev next tree).symm
  rw [id_eq, isTree] at unchanged
  rw [isTree] at consists
  apply answers_create
  cases recurse with
  | false =>
      rw [if_neg Bool.false_ne_true]
      exact (consists.duplicateFields (2 * store.unused)).perm (unchanged.symm.append_left _)
  | true =>
      have enough : 2 * PlacedItem.size tree ≤ store.fuel := by
        have bounded := consists.length_le
        rw [List.length_append, PlacedItem.length_cells] at bounded
        rw [represents.fuel_eq]
        have below := (Nat.le_add_right _ _).trans bounded
        exact Nat.le_succ_of_le (Nat.mul_le_mul_left 2 below)
      rw [if_pos rfl, PlacedItem.copy_address, PlacedItem.size_copy]
      exact (Consists.duplicate store.fuel consists enough).perm
        (unchanged.symm.append_left _)

/-- The changed trees in the memory after a call. -/
theorem answers_of_yields
    {roots : List PlacedItem}
    {before : Forest}
    {prev next : Option Address}
    {rest : List (Address × Node)}
    {change : List PlacedItem → List PlacedItem}
    {result : Except StoreError Store}
    (same : (rootCells ItemFields.node (graft array change roots)).Perm
      (arrayCells array tree.data prev next (change tree.child) ++ rest))
    (yields : Yields before.lostNames before.unused
      (arrayCells array tree.data prev next (change tree.child) ++ rest) result) :
    Answers (.none, before.link array change roots)
      (result >>= fun store => .ok (.none, store)) :=
  (yields.perm same.symm).returns

/-- The changed trees and a detached one in the memory after a call. -/
theorem answers_of_returns
    {prev next : Option Address}
    {rest : List (Address × Node)}
    {change : List PlacedItem → List PlacedItem}
    {detached : Option PlacedItem}
    {result : Except StoreError (Option Address × Store)}
    (same : (rootCells ItemFields.node (graft array change forest.roots)).Perm
      (arrayCells array tree.data prev next (change tree.child) ++ rest))
    (returns : Returns (detached.map Tree.address) forest.lostNames forest.unused
      (arrayCells array tree.data prev next (change tree.child) ++
        (rootCells ItemFields.node detached.toList ++ rest)) result) :
    Answers (.pointer (detached.map Tree.address), forest.detach array change detached)
      (result >>= fun detached => .ok (.pointer detached.1, detached.2)) := by
  obtain ⟨after, rfl, consists⟩ := returns
  refine ⟨after, rfl, ?_⟩
  have roots : (rootCells ItemFields.node
      (detached.toList ++ graft array change forest.roots)).Perm
      (rootCells ItemFields.node detached.toList ++
        (arrayCells array tree.data prev next (change tree.child) ++ rest)) := by
    rw [rootCells, List.flatMap_append]
    exact same.append_left _
  exact (consists.perm (List.perm_append_comm_assoc _ _ _)).perm roots.symm

end Array

/-- A call answers like the one on trees. -/
theorem Represents.call
    {call : ItemCall}
    {answer : ItemAnswer × Forest}
    (represents : store.Represents forest)
    (performed : forest.perform call = some answer) :
    Answers answer (store.call call) := by
  cases call with
  | create new =>
      cases performed
      have created := Consists.createItem represents new.node.fields
      rw [arrayCells_eq, ← NewItem.node_eq] at created
      rw [Store.call, Consists.unused represents]
      exact ⟨_, rfl, created⟩
  | createIntArray numbers =>
      cases performed
      exact represents.createArrayOf fun number => rfl
  | createDoubleArray numbers =>
      cases performed
      exact represents.createArrayOf fun number => rfl
  | createStringArray strings =>
      cases performed
      exact represents.createArrayOf fun string => rfl
  | duplicate item recurse =>
      obtain ⟨tree, found, returned⟩ := Option.bind_eq_some_iff.mp performed
      cases returned
      exact represents.duplicate found recurse
  | getArraySize array =>
      obtain ⟨tree, found, returned⟩ := Option.bind_eq_some_iff.mp performed
      cases returned
      obtain ⟨prev, next, rest, consists, -⟩ := represents.exists_array found
      refine ⟨store, ?_, represents⟩
      have enough := consists.itemsFirst.length_lt represents.large
      rw [Store.call, getArraySize, consists.loadArray, Outcome.ok_bind,
        ItemFields.node_child, consists.itemsFirst.countItems 0 enough, Nat.zero_add]
      rfl
  | getArrayItem array item =>
      obtain ⟨tree, found, returned⟩ := Option.bind_eq_some_iff.mp performed
      cases returned
      obtain ⟨prev, next, rest, consists, -⟩ := represents.exists_array found
      refine ⟨store, ?_, represents⟩
      rw [Store.call, getArrayItem, consists.loadArray, Outcome.ok_bind,
        ItemFields.node_child, consists.itemsFirst.itemAt]
      rfl
  | getObjectItem object string =>
      obtain ⟨tree, found, returned⟩ := Option.bind_eq_some_iff.mp performed
      cases returned
      obtain ⟨prev, next, rest, consists, -⟩ := represents.exists_array found
      refine ⟨store, ?_, represents⟩
      have enough := consists.itemsFirst.length_lt represents.large
      rw [Store.call, getObjectItem, consists.loadArray, Outcome.ok_bind,
        ItemFields.node_child, consists.itemsFirst.itemLike string enough]
      rfl
  | addItemToArray array item =>
      obtain ⟨⟨root, roots⟩, taken, returned⟩ := Option.bind_eq_some_iff.mp performed
      obtain ⟨tree, found, returned⟩ := Option.bind_eq_some_iff.mp returned
      cases returned
      obtain ⟨prev, next, rest, consists, same⟩ := represents.exists_arrayAndRoot taken found
      obtain ⟨rfl, -⟩ := Forest.of_takeRoot taken
      exact answers_of_yields (same _) (consists.addItemToArray represents.large)
  | addItemToObject object string item =>
      obtain ⟨⟨root, roots⟩, taken, returned⟩ := Option.bind_eq_some_iff.mp performed
      obtain ⟨tree, found, returned⟩ := Option.bind_eq_some_iff.mp returned
      cases returned
      obtain ⟨prev, next, rest, consists, same⟩ := represents.exists_arrayAndRoot taken found
      obtain ⟨rfl, -⟩ := Forest.of_takeRoot taken
      exact answers_of_yields (same _) (consists.addItemToObject string represents.large)
  | detachItemFromArray array which =>
      obtain ⟨tree, found, returned⟩ := Option.bind_eq_some_iff.mp performed
      cases returned
      obtain ⟨prev, next, rest, consists, same⟩ := represents.exists_array found
      exact answers_of_returns (same _) (consists.detachItemFromArray which)
  | detachItemFromObject object string =>
      obtain ⟨tree, found, returned⟩ := Option.bind_eq_some_iff.mp performed
      cases returned
      obtain ⟨prev, next, rest, consists, same⟩ := represents.exists_array found
      exact answers_of_returns (same _)
        (consists.detachItemFromObject string represents.large)
  | deleteItemFromArray array which =>
      obtain ⟨tree, found, returned⟩ := Option.bind_eq_some_iff.mp performed
      cases returned
      obtain ⟨prev, next, rest, consists, same⟩ := represents.exists_array found
      exact answers_of_yields (same _)
        (consists.deleteItemFromArray which represents.large)
  | deleteItemFromObject object string =>
      obtain ⟨tree, found, returned⟩ := Option.bind_eq_some_iff.mp performed
      cases returned
      obtain ⟨prev, next, rest, consists, same⟩ := represents.exists_array found
      exact answers_of_yields (same _)
        (consists.deleteItemFromObject string represents.large)
  | replaceItemInArray array which newitem =>
      obtain ⟨⟨root, roots⟩, taken, returned⟩ := Option.bind_eq_some_iff.mp performed
      obtain ⟨tree, found, returned⟩ := Option.bind_eq_some_iff.mp returned
      obtain ⟨prev, next, rest, consists, same⟩ := represents.exists_arrayAndRoot taken found
      obtain ⟨rfl, -⟩ := Forest.of_takeRoot taken
      cases there : tree.child[which.toNat]? with
      | none =>
          rw [there] at returned
          cases returned
          refine ⟨store, ?_, represents⟩
          rw [Store.call, consists.replaceItemInArray_none there]
          rfl
      | some c =>
          rw [there] at returned
          cases returned
          exact answers_of_yields (same _) (consists.replaceItemInArray there represents.large)
  | replaceItemInObject object string newitem =>
      obtain ⟨⟨root, roots⟩, taken, returned⟩ := Option.bind_eq_some_iff.mp performed
      obtain ⟨tree, found, returned⟩ := Option.bind_eq_some_iff.mp returned
      obtain ⟨prev, next, rest, consists, same⟩ := represents.exists_arrayAndRoot taken found
      obtain ⟨rfl, -⟩ := Forest.of_takeRoot taken
      cases place : tree.child.findIdx? (PlacedItem.namedLike string) with
      | none =>
          rw [place] at returned
          cases returned
          refine ⟨store, ?_, represents⟩
          rw [Store.call, consists.replaceItemInObject_none place represents.large]
          rfl
      | some which =>
          rw [place] at returned
          cases returned
          exact answers_of_yields (same _)
            (consists.replaceItemInObject string place represents.large)
  | delete item =>
      obtain ⟨⟨root, roots⟩, taken, returned⟩ := Option.bind_eq_some_iff.mp performed
      cases returned
      obtain ⟨rfl, same⟩ := Forest.of_takeRoot taken
      have rootFirst : Consists forest.lostNames forest.unused
          (rootCells ItemFields.node (some root).toList ++ rootCells ItemFields.node roots)
          store := by
        rw [rootCells, rootCells, ← List.flatMap_append]
        exact Consists.perm represents (rootCells_perm ItemFields.node same)
      exact (rootFirst.delete represents.large).returns

end Represents

/-! ## Whole sessions -/

/-- Calls on a memory that consists of trees. -/
theorem Represents.calls
    {store : Store}
    {forest : Forest}
    {calls : List ItemCall}
    {answer : List ItemAnswer × Forest}
    (represents : store.Represents forest)
    (performed : forest.performs calls = some answer) :
    ∃ after, store.calls calls = .ok (answer.1, after) ∧ after.Represents answer.2 := by
  induction calls generalizing store forest answer with
  | nil =>
      cases performed
      exact ⟨store, rfl, represents⟩
  | cons call rest inductionHypothesis =>
      obtain ⟨first, performedFirst, performed⟩ := Option.bind_eq_some_iff.mp performed
      obtain ⟨others, performedRest, returned⟩ := Option.bind_eq_some_iff.mp performed
      cases returned
      obtain ⟨middle, called, representsMiddle⟩ := represents.call performedFirst
      obtain ⟨after, calledRest, representsAfter⟩ :=
        inductionHypothesis representsMiddle performedRest
      refine ⟨after, ?_, representsAfter⟩
      rw [Store.calls, called, Outcome.ok_bind]
      dsimp only
      rw [calledRest]
      rfl

/-- Every session of a client that links and deletes only what it has the only pointer to
returns, with the answers that the trees give. The memory consists of the trees then:
each is linked as it should be, and no other node is left. Lost are the names that items
had when they replaced another one by its name, and no others. -/
theorem calls_of_performs
    {calls : List ItemCall}
    {answer : List ItemAnswer × Forest}
    (performed : Forest.performs ⟨0, [], []⟩ calls = some answer) :
    ∃ after, Store.calls ⟨[], []⟩ calls = .ok (answer.1, after) ∧
      after.lostNames = answer.2.lostNames ∧
      Describes (rootCells ItemFields.node answer.2.roots) after.node ∧
      ∀ root ∈ answer.2.roots,
        Holds after none (some root.address) [root.layout] [root.erase] := by
  have start : Represents ⟨[], []⟩ ⟨0, [], []⟩ := ⟨rfl, rfl, describes_nil⟩
  obtain ⟨after, called, represents⟩ := start.calls performed
  refine ⟨after, called, represents.lostNames, represents.describes, fun root present => ?_⟩
  apply holds_of_segment [root]
  intro cell among
  rw [segment_cons, segment_nil, List.append_nil] at among
  exact (represents.describes.mem_iff cell.1 cell.2).mp
    (List.mem_flatMap.mpr ⟨root, present, among⟩)

/-- A member is taken out of an object and replaces the other one, under that one's name;
then the object is copied and deleted. -/
theorem calls_of_performs_renamed :
    ∃ after, Store.calls ⟨[], []⟩
        [.create .object, .create .null, .addItemToObject 0 (CString.ofBuffer [97]) 1,
          .create .true, .addItemToObject 0 (CString.ofBuffer [98]) 2,
          .detachItemFromObject 0 (CString.ofBuffer [66]),
          .replaceItemInObject 0 (CString.ofBuffer [65]) 2, .duplicate 0 true, .delete 0] =
        .ok ([.pointer (some 0), .pointer (some 1), .none, .pointer (some 2), .none,
          .pointer (some 2), .none, .pointer (some 3), .none], after) ∧
      after.lostNames = [CString.ofBuffer [98]] ∧
      Describes (rootCells ItemFields.node
        [⟨3, Node.createObject.fields, [PlacedItem.rename (CString.ofBuffer [65])
          ⟨4, Node.createTrue.fields, []⟩]⟩]) after.node ∧
      ∀ root ∈ [⟨3, Node.createObject.fields, [PlacedItem.rename (CString.ofBuffer [65])
          ⟨4, Node.createTrue.fields, []⟩]⟩],
        Holds after none (some root.address) [PlacedItem.layout root]
          [PlacedItem.erase root] :=
  @calls_of_performs _ (_, ⟨5, _, _⟩) rfl

/-! ## Arrays without their addresses -/

/-- A call returns with exactly these trees in memory, and without its addresses the array
is this one then. -/
def Changes
    (store : Store)
    (array : Address)
    (call : ItemCall)
    (forest : Forest)
    (changed : CJSON) : Prop :=
  ∃ after tree, store.call call = .ok (.none, after) ∧
    after.Represents forest ∧ find array forest.roots = some tree ∧
    PlacedItem.erase tree = changed

section Erased

variable {store : Store} {forest : Forest} {item array : Address}
variable {root tree : PlacedItem} {roots : List PlacedItem}
variable (represents : store.Represents forest)
variable (taken : Forest.takeRoot item forest.roots = some (root, roots))
variable (found : find array roots = some tree)

include represents found

/-- The array with its new children, when they are written without addresses. -/
theorem Represents.changes_of_perform
    {before : Forest}
    {call : ItemCall}
    {change : List PlacedItem → List PlacedItem}
    {changed : CJSON}
    (performed : forest.perform call = some (.none, before.link array change roots))
    (erased : PlacedItem.erase ⟨array, tree.data, change tree.child⟩ = changed) :
    Changes store array call (before.link array change roots) changed := by
  obtain ⟨after, called, representsAfter⟩ := represents.call performed
  exact ⟨after, _, called, representsAfter, find_graft roots found, erased⟩

include taken

/-- The calls that link an item into an array, anywhere in a tree, do to it what the
functions on trees do. The trees in memory are the other roots then, with the item in the
array; a replaced item is no part of them. -/
theorem Represents.changes (string : CString) (which : Nat) :
    Changes store array (.addItemToArray array item)
        (forest.link array (· ++ [root]) roots)
        (tree.erase.addItemToArray root.erase) ∧
      Changes store array (.addItemToObject array string item)
        (forest.link array (· ++ [root.rename string]) roots)
        (tree.erase.addItemToObject string (some root.erase)) ∧
      (which < tree.child.length →
        Changes store array (.replaceItemInArray array which item)
          (forest.link array (·.set which root) roots)
          (tree.erase.replaceItemInArray which root.erase)) ∧
      (tree.erase.indexLike string = some which →
        ∀ changed,
          tree.erase.replaceItemInObject string (some root.erase) = .ok changed →
            Changes store array (.replaceItemInObject array string item)
              ((forest.lose root.data.string).link array (·.set which (root.rename string))
                roots)
              changed) := by
  refine ⟨?_, ?_, fun inRange => ?_, fun place changed replaced => ?_⟩
  · refine represents.changes_of_perform found ?_ (PlacedItem.erase_concat array tree root)
    simp only [Forest.perform, taken, found, Option.bind_eq_bind, Option.bind_some]
    rfl
  · refine represents.changes_of_perform found ?_ ?_
    · simp only [Forest.perform, taken, found, Option.bind_eq_bind, Option.bind_some]
      rfl
    · rw [PlacedItem.erase_concat, PlacedItem.erase_rename]
      rfl
  · refine represents.changes_of_perform found ?_ (PlacedItem.erase_set array tree which root)
    simp only [Forest.perform, taken, found, Option.bind_eq_bind, Option.bind_some,
      Int.toNat_natCast, List.getElem?_eq_getElem inRange]
    rfl
  · rw [CJSON.replaceItemInObject, place] at replaced
    cases replaced
    refine represents.changes_of_perform found ?_ ?_
    · have isPlace : tree.child.findIdx? (PlacedItem.namedLike string) = some which := by
        rw [← PlacedItem.findIdx?_eraseAll, ← place, CJSON.indexLike, PlacedItem.erase_child]
      simp only [Forest.perform, taken, found, Option.bind_eq_bind, Option.bind_some,
        isPlace]
      rfl
    · rw [PlacedItem.erase_set, PlacedItem.erase_rename]

end Erased

/-- An object with one member, and a new item or one that was a member before. -/
theorem Represents.changes_created :
    ∃ store : Store,
      Changes store 0 (.addItemToArray 0 2)
          ⟨3, [⟨0, Node.createObject.fields,
            [PlacedItem.rename (CString.ofBuffer [97]) ⟨1, Node.createNull.fields, []⟩,
              PlacedItem.rename (CString.ofBuffer [98]) ⟨2, Node.createTrue.fields, []⟩]⟩], []⟩
          (CJSON.addItemToArray
            (PlacedItem.erase ⟨0, Node.createObject.fields,
              [PlacedItem.rename (CString.ofBuffer [97]) ⟨1, Node.createNull.fields, []⟩]⟩)
            (PlacedItem.erase
              (PlacedItem.rename (CString.ofBuffer [98]) ⟨2, Node.createTrue.fields, []⟩))) ∧
        ∀ changed,
          CJSON.replaceItemInObject
              (PlacedItem.erase ⟨0, Node.createObject.fields,
                [PlacedItem.rename (CString.ofBuffer [97]) ⟨1, Node.createNull.fields, []⟩]⟩)
              (CString.ofBuffer [65])
              (some (PlacedItem.erase (PlacedItem.rename (CString.ofBuffer [98])
                ⟨2, Node.createTrue.fields, []⟩))) = .ok changed →
            Changes store 0 (.replaceItemInObject 0 (CString.ofBuffer [65]) 2)
              ⟨3, [⟨0, Node.createObject.fields,
                [PlacedItem.rename (CString.ofBuffer [65]) ⟨2, Node.createTrue.fields, []⟩]⟩],
                [CString.ofBuffer [98]]⟩
              changed := by
  have start : Represents ⟨[], []⟩ ⟨0, [], []⟩ := ⟨rfl, rfl, describes_nil⟩
  obtain ⟨store, -, represents⟩ := @Represents.calls _ _
    [.create .object, .create .null, .addItemToObject 0 (CString.ofBuffer [97]) 1,
      .create .true, .addItemToObject 0 (CString.ofBuffer [98]) 2,
      .detachItemFromObject 0 (CString.ofBuffer [98])] (_, ⟨3, _, _⟩) start rfl
  have all := @Represents.changes store _ 2 0
    (PlacedItem.rename (CString.ofBuffer [98]) ⟨2, Node.createTrue.fields, []⟩)
    ⟨0, Node.createObject.fields,
      [PlacedItem.rename (CString.ofBuffer [97]) ⟨1, Node.createNull.fields, []⟩]⟩
    _ represents rfl rfl (CString.ofBuffer [65]) 0
  exact ⟨store, all.1, fun changed replaced => all.2.2.2 (by decide) changed replaced⟩

end Store
end ProtobufSandbox
