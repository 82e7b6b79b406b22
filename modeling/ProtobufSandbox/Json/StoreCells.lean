import ProtobufSandbox.Foundation.Cells
import ProtobufSandbox.Foundation.LinkedForest
import ProtobufSandbox.Json.StoreReplacement

/-!
# Memories that consist of trees

Items with their addresses, the nodes of the trees that they form, and memories that
consist of such nodes and nothing else. What a loop along a chain finds and what a write
does is said about the nodes it needs; all other nodes stay as they are.
-/

namespace ProtobufSandbox

open LinkedForest Cells

/-- The fields of an item without its pointers. -/
structure ItemFields where
  type : CJSONType
  valuestring : Option CString
  valueint : Int32
  valuedouble : Rat
  string : Option CString

/-- The node of an item. -/
def ItemFields.node (fields : ItemFields) (links : LinkedForest.Links Address) : Node where
  next := links.next
  prev := links.prev
  child := links.child
  type := fields.type
  valuestring := fields.valuestring
  valueint := fields.valueint
  valuedouble := fields.valuedouble
  string := fields.string

@[simp] theorem ItemFields.node_child
    (fields : ItemFields)
    (links : LinkedForest.Links Address) :
    (fields.node links).child = links.child := rfl

@[simp] theorem ItemFields.node_string
    (fields : ItemFields)
    (links : LinkedForest.Links Address) :
    (fields.node links).string = fields.string := rfl

/-- The fields of a node. -/
def Node.fields (node : Node) : ItemFields where
  type := node.type
  valuestring := node.valuestring
  valueint := node.valueint
  valuedouble := node.valuedouble
  string := node.string

/-- An item with its address, and with the items below it. -/
abbrev PlacedItem := LinkedForest.Tree Address ItemFields

namespace PlacedItem

mutual

/-- The tree without its addresses. -/
def erase : PlacedItem → CJSON
  | ⟨_, data, child⟩ =>
      ⟨eraseAll child, data.type, data.valuestring, data.valueint, data.valuedouble,
        data.string⟩

/-- The trees of a chain without their addresses. -/
def eraseAll : List PlacedItem → List CJSON
  | [] => []
  | item :: items => erase item :: eraseAll items

end

mutual

/-- The addresses of a tree. -/
def layout : PlacedItem → Layout
  | ⟨address, _, child⟩ => ⟨address, layouts child⟩

/-- The addresses of the trees in a chain. -/
def layouts : List PlacedItem → List Layout
  | [] => []
  | item :: items => layout item :: layouts items

end

theorem eraseAll_eq_map (items : List PlacedItem) : eraseAll items = items.map erase := by
  induction items with
  | nil => rfl
  | cons item items inductionHypothesis => rw [eraseAll, inductionHypothesis, List.map_cons]

theorem layouts_eq_map (items : List PlacedItem) : layouts items = items.map layout := by
  induction items with
  | nil => rfl
  | cons item items inductionHypothesis => rw [layouts, inductionHypothesis, List.map_cons]

@[simp] theorem layout_address (item : PlacedItem) : (layout item).address = item.address := by
  cases item
  rw [layout]

theorem erase_eq (item : PlacedItem) (links : LinkedForest.Links Address) :
    erase item = (item.data.node links).item (eraseAll item.child) := by
  cases item
  rw [erase]
  rfl

@[simp] theorem erase_string (item : PlacedItem) : (erase item).string = item.data.string := by
  cases item
  rw [erase]

mutual

theorem addresses_layout (item : PlacedItem) (prev next : Option Address) :
    (layout item).addresses = (cells ItemFields.node prev next item).map Prod.fst := by
  obtain ⟨address, data, child⟩ := item
  rw [layout, Layout.addresses, cells, List.map_cons, addressesOf_layouts child]

/-- The addresses of a chain are those of its cells. -/
theorem addressesOf_layouts (items : List PlacedItem) (prev next : Option Address) :
    Layout.addressesOf (layouts items) =
      (segment ItemFields.node prev next items).map Prod.fst := by
  cases items with
  | nil =>
      rw [layouts, Layout.addressesOf, segment_nil, List.map_nil]
  | cons item items =>
      rw [layouts, Layout.addressesOf, segment_cons, List.map_append,
        addresses_layout item, addressesOf_layouts items]

end

theorem chain_layouts (items : List PlacedItem) :
    Layout.chain (layouts items) = items.map Tree.address := by
  rw [Layout.chain, layouts_eq_map, List.map_map]
  congr 1
  funext item
  exact layout_address item

/-- The item is named like that, ignoring case. -/
def namedLike (string : CString) (item : PlacedItem) : Bool :=
  decide (strcasecmp item.data.string (some string) = 0)

theorem findIdx?_eraseAll (string : CString) (items : List PlacedItem) :
    (eraseAll items).findIdx? (fun item => item.namedLike string) =
      items.findIdx? (namedLike string) := by
  rw [eraseAll_eq_map, List.findIdx?_map]
  congr 1
  funext item
  rw [Function.comp_apply, CJSON.namedLike, erase_string, namedLike]

mutual

/-- The number of items in a tree. -/
def size : PlacedItem → Nat
  | ⟨_, _, child⟩ => sizeAll child + 1

/-- The number of items in the trees of a chain. -/
def sizeAll : List PlacedItem → Nat
  | [] => 0
  | item :: items => size item + sizeAll items

end

mutual

/-- A copy of a tree, with addresses in the order in which its items are created. -/
def copy (unused : Address) : PlacedItem → PlacedItem
  | ⟨_, data, child⟩ => ⟨unused, data, copyAll (unused + 1) child⟩

/-- Copies of the trees of a chain. -/
def copyAll (unused : Address) : List PlacedItem → List PlacedItem
  | [] => []
  | item :: items => copy unused item :: copyAll (unused + size item) items

end

/-- The item under another name. -/
def rename (string : CString) (item : PlacedItem) : PlacedItem :=
  ⟨item.address, { item.data with string := some string }, item.child⟩

theorem erase_child (item : PlacedItem) : (erase item).child = eraseAll item.child := by
  cases item
  rw [erase]

theorem erase_rename (string : CString) (item : PlacedItem) :
    erase (rename string item) = { erase item with string := some string } := by
  cases item
  rw [rename, erase, erase]

/-- An array with another item at the end. -/
theorem erase_concat (address : Address) (array item : PlacedItem) :
    erase ⟨address, array.data, array.child ++ [item]⟩ =
      (erase array).addItemToArray (erase item) := by
  cases array
  rw [erase, erase, CJSON.addItemToArray, eraseAll_eq_map, eraseAll_eq_map, List.map_append,
    List.map_singleton]

/-- An array with another item at a place. -/
theorem erase_set (address : Address) (array : PlacedItem) (which : Nat) (item : PlacedItem) :
    erase ⟨address, array.data, array.child.set which item⟩ =
      (erase array).replaceItemInArray which (erase item) := by
  cases array
  rw [erase, erase, CJSON.replaceItemInArray, eraseAll_eq_map, eraseAll_eq_map, List.map_set]

theorem size_pos (item : PlacedItem) : 0 < size item := by
  cases item
  rw [size]
  exact Nat.succ_pos _

theorem copy_address (unused : Address) (item : PlacedItem) :
    (copy unused item).address = unused := by
  cases item
  rw [copy]

mutual

/-- There is a node for each item of a tree. -/
theorem length_cells (item : PlacedItem) (prev next : Option Address) :
    (cells ItemFields.node prev next item).length = size item := by
  obtain ⟨address, data, child⟩ := item
  rw [cells, List.length_cons, length_segment child, size]

theorem length_segment (items : List PlacedItem) (prev next : Option Address) :
    (segment ItemFields.node prev next items).length = sizeAll items := by
  cases items with
  | nil =>
      rw [segment_nil, List.length_nil, sizeAll]
  | cons item items =>
      rw [segment_cons, List.length_append, length_cells item, length_segment items, sizeAll]

end

mutual

theorem size_copy (item : PlacedItem) (unused : Address) :
    size (copy unused item) = size item := by
  obtain ⟨address, data, child⟩ := item
  rw [copy, size, size, sizeAll_copyAll child]

/-- A copy has as many items. -/
theorem sizeAll_copyAll (items : List PlacedItem) (unused : Address) :
    sizeAll (copyAll unused items) = sizeAll items := by
  cases items with
  | nil => rw [copyAll]
  | cons item items =>
      rw [copyAll, sizeAll, sizeAll, size_copy item, sizeAll_copyAll items]

end

end PlacedItem

namespace Store

/-! ## Memories that consist of cells -/

/-- These are the nodes in memory and the names that are lost, and that is the address of
the next new node. -/
structure Consists
    (lost : List CString)
    (unused : Address)
    (nodes : List (Address × Node))
    (store : Store) : Prop where
  lostNames : store.lostNames = lost
  unused : store.unused = unused
  describes : Describes nodes store.node

/-- A call returns with a memory that consists of these nodes. -/
def Yields
    (lost : List CString)
    (unused : Address)
    (nodes : List (Address × Node))
    (result : Except StoreError Store) : Prop :=
  ∃ after, result = .ok after ∧ Consists lost unused nodes after

/-- A call returns this value, with a memory that consists of these nodes. -/
def Returns
    (value : α)
    (lost : List CString)
    (unused : Address)
    (nodes : List (Address × Node))
    (result : Except StoreError (α × Store)) : Prop :=
  ∃ after, result = .ok (value, after) ∧ Consists lost unused nodes after

section Consists

variable {store : Store} {lost : List CString} {unused address : Address} {node : Node}
variable {nodes others : List (Address × Node)} {result : Except StoreError Store}

theorem Consists.perm
    (consists : Consists lost unused nodes store)
    (same : nodes.Perm others) :
    Consists lost unused others store :=
  ⟨consists.lostNames, consists.unused, consists.describes.perm same⟩

theorem Consists.yields (consists : Consists lost unused nodes store) :
    Yields lost unused nodes (.ok store) :=
  ⟨store, rfl, consists⟩

theorem Yields.perm
    (yields : Yields lost unused nodes result)
    (same : nodes.Perm others) :
    Yields lost unused others result := by
  obtain ⟨after, returned, consists⟩ := yields
  exact ⟨after, returned, consists.perm same⟩

theorem Returns.perm
    {value : α}
    {result : Except StoreError (α × Store)}
    (returns : Returns value lost unused nodes result)
    (same : nodes.Perm others) :
    Returns value lost unused others result := by
  obtain ⟨after, returned, consists⟩ := returns
  exact ⟨after, returned, consists.perm same⟩

/-- The memory after a call is returned with a value. -/
theorem Yields.returns
    {value : α}
    (yields : Yields lost unused nodes result) :
    Returns value lost unused nodes (result >>= fun store => .ok (value, store)) := by
  obtain ⟨after, rfl, consists⟩ := yields
  exact ⟨after, rfl, consists⟩

/-- One call after another. -/
theorem Yields.bind
    {final : Address}
    {next : Store → Except StoreError Store}
    (yields : Yields lost unused nodes result)
    (follows : ∀ store, Consists lost unused nodes store → Yields lost final others (next store)) :
    Yields lost final others (result >>= next) := by
  obtain ⟨after, rfl, consists⟩ := yields
  exact follows after consists

theorem Consists.node_eq
    (consists : Consists lost unused ((address, node) :: nodes) store) :
    store.node address = some node :=
  consists.describes.head

theorem Consists.load
    (consists : Consists lost unused ((address, node) :: nodes) store) :
    store.load address = .ok node :=
  load_of_node consists.node_eq

theorem Consists.write
    (consists : Consists lost unused ((address, node) :: nodes) store)
    (change : Node → Node) :
    Yields lost unused ((address, change node) :: nodes) (store.write address change) := by
  have same : (store.modify address change).node =
      Function.update store.node address (some (change node)) := by
    funext other
    rw [node_modify]
    rcases eq_or_ne other address with rfl | different
    · rw [if_pos rfl, consists.node_eq, Function.update_self, Option.map_some]
    · rw [if_neg different.symm, Function.update_of_ne different]
  refine ⟨_, write_of_node consists.node_eq change, consists.lostNames, ?_,
    same ▸ consists.describes.replace _⟩
  rw [Store.unused, modify, List.length_modify]
  exact consists.unused

theorem Consists.create
    (consists : Consists lost unused nodes store)
    (new : Node) :
    Consists lost (unused + 1) ((unused, new) :: nodes) (store.create new) := by
  obtain ⟨lostNames, rfl, describes⟩ := consists
  have same : (store.create new).node =
      Function.update store.node store.unused (some new) := by
    funext other
    rw [node_create]
    rcases eq_or_ne other store.unused with rfl | different
    · rw [if_pos rfl, Function.update_self]
    · rw [if_neg different.symm, Function.update_of_ne different]
  refine ⟨lostNames, ?_, same ▸ describes.insert store.node_unused new⟩
  rw [Store.unused, Store.create, List.length_append, List.length_singleton, ← Store.unused]

theorem Consists.lose (consists : Consists lost unused nodes store) (name : Option CString) :
    Consists (lost ++ name.toList) unused nodes (store.lose name) :=
  ⟨congrArg (· ++ name.toList) consists.lostNames, consists.unused, consists.describes⟩

/-- Every node lies in front of the next new one. -/
theorem Consists.length_le (consists : Consists lost unused nodes store) :
    nodes.length ≤ unused := by
  obtain ⟨-, rfl, describes⟩ := consists
  have below : nodes.map Prod.fst ⊆ List.range store.unused := by
    intro address present
    obtain ⟨cell, among, rfl⟩ := List.mem_map.mp present
    have inUse := (describes.mem_iff cell.1 cell.2).mp among
    rw [List.mem_range]
    by_contra later
    rw [Store.node, List.getElem?_eq_none (Nat.le_of_not_lt later)] at inUse
    cases inUse
  have bounded := (List.subperm_of_subset describes.distinct below).length_le
  rwa [List.length_map, List.length_range] at bounded

end Consists

/-! ## Chains that are held -/

mutual

theorem holds_of_cells
    {store : Store}
    {prev next : Option Address}
    (item : PlacedItem)
    (there : ∀ cell ∈ cells ItemFields.node prev next item,
      store.node cell.1 = some cell.2) :
    Holds store none (entry none item.child) (PlacedItem.layout item).child
      (PlacedItem.eraseAll item.child) := by
  obtain ⟨address, data, child⟩ := item
  rw [cells] at there
  rw [PlacedItem.layout]
  exact holds_of_segment child fun cell present =>
    there cell (List.mem_cons_of_mem _ present)

/-- The cells of a chain hold it. -/
theorem holds_of_segment
    {store : Store}
    {prev : Option Address}
    (items : List PlacedItem)
    (there : ∀ cell ∈ segment ItemFields.node prev none items,
      store.node cell.1 = some cell.2) :
    Holds store prev (entry none items) (PlacedItem.layouts items)
      (PlacedItem.eraseAll items) := by
  cases items with
  | nil => exact .nil
  | cons item items =>
      rw [segment_cons] at there
      have children := holds_of_cells item fun cell present =>
        there cell (List.mem_append_left _ present)
      have behind := holds_of_segment items fun cell present =>
        there cell (List.mem_append_right _ present)
      have here := there _ (List.mem_append_left _ (by
        rw [cells_eq]
        exact List.mem_cons_self))
      rw [PlacedItem.layouts, PlacedItem.eraseAll, entry_cons, ← PlacedItem.layout_address,
        PlacedItem.erase_eq item ⟨prev, entry none items, entry none item.child⟩]
      refine .cons ?_ rfl children ?_
      · rw [PlacedItem.layout_address]
        exact here
      · rw [PlacedItem.layout_address]
        exact behind

end

/-- What no removal changes, a deletion does not change either. -/
theorem delete_keeps
    {measure : Store → β}
    (kept : ∀ store address, measure (store.remove address) = measure store)
    (fuel : Nat)
    {store after : Store}
    {first : Option Address}
    (deleted : delete fuel first store = .ok after) :
    measure after = measure store := by
  induction fuel generalizing store after first with
  | zero => cases deleted
  | succ fuel inductionHypothesis =>
      cases first with
      | none =>
          cases deleted
          rfl
      | some c =>
          rw [delete] at deleted
          obtain ⟨node, -, deleted⟩ := Outcome.bind_eq_ok_iff.mp deleted
          obtain ⟨childless, below, deleted⟩ := Outcome.bind_eq_ok_iff.mp deleted
          obtain ⟨freed, free, behind⟩ := Outcome.bind_eq_ok_iff.mp deleted
          obtain ⟨present, -, removed⟩ := Outcome.bind_eq_ok_iff.mp free
          cases removed
          rw [inductionHypothesis behind]
          exact (kept childless c).trans (inductionHypothesis below)

theorem Consists.loadItem
    {store : Store}
    {unused : Address}
    {prev next : Option Address}
    {item : PlacedItem}
    {rest : List (Address × Node)}
    (consists : Consists lost unused (cells ItemFields.node prev next item ++ rest) store) :
    store.load item.address =
      .ok (item.data.node ⟨prev, next, entry none item.child⟩) := by
  rw [cells_eq] at consists
  exact consists.load

section Loops

variable {store : Store} {lost : List CString} {unused : Address} {prev : Option Address}
variable {items : List PlacedItem} {rest : List (Address × Node)}
variable (consists :
  Consists lost unused (segment ItemFields.node prev none items ++ rest) store)

include consists

theorem Consists.holds :
    Holds store prev (entry none items) (PlacedItem.layouts items)
      (PlacedItem.eraseAll items) := by
  apply holds_of_segment
  intro cell present
  exact (consists.describes.mem_iff cell.1 cell.2).mp (List.mem_append_left _ present)

theorem Consists.length_lt
    {fuel : Nat}
    (large : unused < fuel) :
    items.length < fuel := by
  have bounded := consists.length_le
  have enough := length_le_segment ItemFields.node prev none items
  rw [List.length_append] at bounded
  exact Nat.lt_of_le_of_lt (enough.trans ((Nat.le_add_right _ _).trans bounded)) large

theorem Consists.itemAt (which : Nat) :
    Store.itemAt which (entry none items) store =
      .ok (items[which]?.map Tree.address) := by
  rw [itemAt_of_holds consists.holds, PlacedItem.chain_layouts, List.getElem?_map]

theorem Consists.indexLike
    (string : CString)
    {fuel : Nat}
    (large : unused < fuel) :
    Store.indexLike string fuel 0 (entry none items) store =
      .ok (items.findIdx? (PlacedItem.namedLike string)) := by
  have enough : (PlacedItem.eraseAll items).length < fuel := by
    rw [PlacedItem.eraseAll_eq_map, List.length_map]
    exact consists.length_lt large
  rw [indexLike_of_holds consists.holds string 0 enough, PlacedItem.findIdx?_eraseAll]
  exact congrArg Except.ok Option.map_id'

theorem Consists.lastItem
    {first last : Address}
    (isFirst : entry none items = some first)
    (isLast : exit none items = some last)
    {fuel : Nat}
    (large : unused < fuel) :
    Store.lastItem fuel first store = .ok last := by
  have enough : (PlacedItem.eraseAll items).length < fuel := by
    rw [PlacedItem.eraseAll_eq_map, List.length_map]
    exact consists.length_lt large
  obtain ⟨found, walked, isFound⟩ := exists_lastItem (isFirst ▸ consists.holds) enough
  rw [PlacedItem.chain_layouts] at isFound
  rw [walked]
  rcases List.eq_nil_or_concat items with rfl | ⟨before, item, rfl⟩
  · cases isFirst
  · rw [List.concat_eq_append, exit_append, exit_cons, exit_nil] at isLast
    rw [List.concat_eq_append, List.map_append, List.map_singleton,
      List.getLast?_concat] at isFound
    rw [← Option.some.inj isLast, ← Option.some.inj isFound]

/-- The loop of `cJSON_GetArraySize` counts the items. -/
theorem Consists.countItems
    (i : Nat)
    {fuel : Nat}
    (large : items.length < fuel) :
    Store.countItems fuel i (entry none items) store = .ok (i + items.length) := by
  induction items generalizing prev i fuel rest with
  | nil =>
      obtain ⟨fuel, rfl⟩ := Nat.exists_eq_add_one.mpr large
      rfl
  | cons item items inductionHypothesis =>
      obtain ⟨fuel, rfl⟩ := Nat.exists_eq_add_one.mpr (Nat.zero_lt_of_lt large)
      rw [segment_cons, List.append_assoc] at consists
      rw [entry_cons, Store.countItems, consists.loadItem, Outcome.ok_bind]
      have behind := inductionHypothesis
        (consists.perm (List.perm_append_comm_assoc _ _ _)) (i + 1)
        (Nat.lt_of_succ_lt_succ large)
      rw [List.length_cons, Nat.add_comm items.length, ← Nat.add_assoc]
      exact behind

/-- The loop of `cJSON_GetObjectItem` finds the first item of the name. -/
theorem Consists.itemLike
    (string : CString)
    {fuel : Nat}
    (large : items.length < fuel) :
    Store.itemLike string fuel (entry none items) store =
      .ok ((items.find? (PlacedItem.namedLike string)).map Tree.address) := by
  induction items generalizing prev fuel rest with
  | nil =>
      obtain ⟨fuel, rfl⟩ := Nat.exists_eq_add_one.mpr large
      rfl
  | cons item items inductionHypothesis =>
      obtain ⟨fuel, rfl⟩ := Nat.exists_eq_add_one.mpr (Nat.zero_lt_of_lt large)
      rw [segment_cons, List.append_assoc] at consists
      rw [entry_cons, Store.itemLike, consists.loadItem, Outcome.ok_bind, List.find?_cons]
      by_cases like : strcasecmp item.data.string (some string) = 0
      · have isLike : PlacedItem.namedLike string item = true := decide_eq_true like
        rw [isLike]
        exact if_pos like
      · have notLike : PlacedItem.namedLike string item = false := decide_eq_false like
        rw [notLike]
        exact (if_neg like).trans (inductionHypothesis
          (consists.perm (List.perm_append_comm_assoc _ _ _)) (Nat.lt_of_succ_lt_succ large))

/-- Deleting a chain leaves what is not a part of it. -/
theorem Consists.deleteChain
    {fuel : Nat}
    (large : unused < fuel) :
    Yields lost unused rest (Store.delete fuel (entry none items) store) := by
  have addresses := PlacedItem.addressesOf_layouts items prev none
  have distinct := consists.describes.distinct
  have bounded := consists.length_le
  rw [List.map_append] at distinct
  rw [List.length_append] at bounded
  obtain ⟨after, deleted, isAfter⟩ :=
    delete_of_holds fuel consists.holds (addresses ▸ distinct.of_append_left) (by
      rw [addresses, List.length_map]
      exact Nat.lt_of_le_of_lt ((Nat.le_add_right _ _).trans bounded) large)
  refine ⟨after, deleted,
    (delete_keeps (fun store address => rfl) fuel deleted).trans consists.lostNames,
    (delete_keeps (fun store address => List.length_set) fuel deleted).trans consists.unused,
    ?_⟩
  exact consists.describes.erase_append fun address => by rw [isAfter, addresses]

end Loops

/-- Deleting an item that is linked to nothing, or no item. -/
theorem Consists.delete
    {store : Store}
    {unused : Address}
    {item : Option PlacedItem}
    {rest : List (Address × Node)}
    (consists : Consists lost unused (rootCells ItemFields.node item.toList ++ rest) store)
    {fuel : Nat}
    (large : unused < fuel) :
    Yields lost unused rest (Store.delete fuel (item.map Tree.address) store) := by
  cases item with
  | none => exact @Consists.deleteChain store lost unused none [] rest consists fuel large
  | some item =>
      apply @Consists.deleteChain store lost unused none [item] rest ?_ fuel large
      rw [Option.toList_some, rootCells_cons, rootCells_nil] at consists
      rw [segment_cons, segment_nil]
      exact consists

/-! ## Writes to linked items -/

section Writes

variable {store : Store} {lost : List CString} {unused : Address} {prev next : Option Address}
variable {item : PlacedItem} {items : List PlacedItem} {rest : List (Address × Node)}

/-- The item gets other neighbours. -/
theorem Consists.writeLinks
    (consists : Consists lost unused (cells ItemFields.node prev next item ++ rest) store)
    {change : Node → Node}
    {front behind : Option Address}
    (changes : ∀ fields child, change (ItemFields.node fields ⟨prev, next, child⟩) =
      fields.node ⟨front, behind, child⟩) :
    Yields lost unused (cells ItemFields.node front behind item ++ rest)
      (store.write item.address change) := by
  rw [cells_eq] at consists ⊢
  rw [← changes]
  exact consists.write change

theorem Consists.writeString
    (consists : Consists lost unused (cells ItemFields.node prev next item ++ rest) store)
    (string : CString) :
    Yields lost unused (cells ItemFields.node prev next (item.rename string) ++ rest)
      (store.write item.address ({ · with string := some string })) := by
  rw [cells_eq] at consists ⊢
  exact consists.write ({ · with string := some string })

/-- The first item of a part of a chain gets another one in front of it. -/
theorem Consists.writeEntry
    (consists : Consists lost unused (segment ItemFields.node prev none items ++ rest) store)
    (front : Option Address) :
    Yields lost unused (segment ItemFields.node front none items ++ rest)
      (store.writeIf (entry none items) ({ · with prev := front })) := by
  cases items with
  | nil => exact consists.yields
  | cons item items =>
      rw [segment_cons, List.append_assoc] at consists ⊢
      exact consists.writeLinks (by intros; rfl)

/-- The last item of a part of a chain gets another one behind it. -/
theorem Consists.writeExit
    (consists : Consists lost unused (segment ItemFields.node none next items ++ rest) store)
    (behind : Option Address) :
    Yields lost unused (segment ItemFields.node none behind items ++ rest)
      (store.writeIf (exit none items) ({ · with next := behind })) := by
  rcases List.eq_nil_or_concat items with rfl | ⟨before, item, rfl⟩
  · exact consists.yields
  · rw [List.concat_eq_append] at consists ⊢
    have same (own : Option Address) :=
      (segment_concat_perm ItemFields.node none own before item).append_right rest
    rw [exit_append, exit_cons, exit_nil]
    exact ((consists.perm (same next)).write _).perm (same behind).symm

end Writes

end Store
end ProtobufSandbox
