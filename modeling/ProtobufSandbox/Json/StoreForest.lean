import ProtobufSandbox.Json.StoreCells

/-!
# Calls on forests

What the calls of `cJSON` that change the chains of children do to a memory that consists
of trees: each returns, and comes to the nodes of the changed trees. All the other nodes
stay as they are.
-/

namespace ProtobufSandbox

open LinkedForest Cells

namespace Store

/-! ## Calls on an array -/

section Calls

variable {store : Store} {lost : List CString} {unused array : Address} {data : ItemFields}
variable {prev next : Option Address} {rest : List (Address × Node)}

/-- The node of an array, and the cells of its items. -/
def arrayCells
    (array : Address)
    (data : ItemFields)
    (prev next : Option Address)
    (child : List PlacedItem) : List (Address × Node) :=
  (array, data.node ⟨prev, next, entry none child⟩) ::
    segment ItemFields.node none none child

/-- The array points to another first item. -/
theorem Consists.writeChild
    {child : Option Address}
    {nodes : List (Address × Node)}
    (consists : Consists lost unused ((array, data.node ⟨prev, next, child⟩) :: nodes) store)
    (first : Option Address) :
    Yields lost unused ((array, data.node ⟨prev, next, first⟩) :: nodes)
      (store.write array ({ · with child := first })) :=
  consists.write _

/-- Only the first item of an array has none in front of it. -/
theorem Consists.isFirst_iff
    {before behind : List PlacedItem}
    {c : PlacedItem}
    (consists : Consists lost unused
      (segment ItemFields.node none none (before ++ c :: behind) ++ rest) store) :
    entry none (before ++ c :: behind) = some c.address ↔ before = [] := by
  cases before with
  | nil => exact iff_of_true rfl rfl
  | cons first before =>
      refine iff_of_false (fun same => ?_) (List.cons_ne_nil first before)
      have distinct := consists.describes.distinct
      rw [List.map_append] at distinct
      have apart := distinct.of_append_left
      rw [List.cons_append, segment_cons, segment_append, segment_cons, cells_eq, cells_eq,
        List.cons_append, List.map_cons, List.nodup_cons] at apart
      apply apart.1
      rw [Option.some.inj same]
      simp

/-- A new item is linked behind the last one, or is the first one. -/
theorem Consists.linkBehind
    {items : List PlacedItem}
    {item : PlacedItem}
    (consists : Consists lost unused
      (arrayCells array data prev next items ++
        (cells ItemFields.node none none item ++ rest)) store) :
    Yields lost unused (arrayCells array data prev next (items ++ [item]) ++ rest)
      (Store.linkBehind array (exit none items) item.address store) := by
  unfold arrayCells at consists ⊢
  rcases List.eq_nil_or_concat items with rfl | ⟨before, last, rfl⟩
  · simp only [segment_nil, segment_cons, List.nil_append, List.append_nil,
      List.cons_append] at consists ⊢
    exact consists.writeChild (some item.address)
  · rw [List.concat_eq_append] at consists ⊢
    have isLast : exit none (before ++ [last]) = some last.address := by
      rw [exit_append, exit_cons, exit_nil]
    have sameFirst : entry none (before ++ [last] ++ [item]) =
        entry none (before ++ [last]) := by
      cases before with
      | nil => rfl
      | cons first before => rfl
    rw [isLast, sameFirst, segment_append, isLast, segment_cons, segment_nil, entry_cons,
      entry_nil, List.append_nil, Store.linkBehind, suffixObject]
    generalize (array, data.node ⟨prev, next, entry none (before ++ [last])⟩) = arrayCell
      at consists ⊢
    have lastFirst : Consists lost unused (segment ItemFields.node none none (before ++ [last]) ++
        (arrayCell :: (cells ItemFields.node none none item ++ rest))) store :=
      consists.perm List.perm_middle.symm
    have wroteLast := lastFirst.writeExit (some item.address)
    rw [isLast] at wroteLast
    refine wroteLast.bind fun store consists => ?_
    have itemFirst : Consists lost unused (cells ItemFields.node none none item ++
        (arrayCell :: (segment ItemFields.node none (some item.address) (before ++ [last]) ++
          rest))) store :=
      consists.perm (perm_of_count fun cell => by
        simp only [List.count_append, List.count_cons]
        omega)
    have wroteItem : Yields lost unused (cells ItemFields.node (some last.address) none item ++
        (arrayCell :: (segment ItemFields.node none (some item.address) (before ++ [last]) ++
          rest))) (store.write item.address ({ · with prev := some last.address })) :=
      itemFirst.writeLinks fun fields child => rfl
    exact wroteItem.perm (perm_of_count fun cell => by
      simp only [List.count_append, List.count_cons]
      omega)

theorem Consists.addItemToArray
    {items : List PlacedItem}
    {item : PlacedItem}
    (consists : Consists lost unused
      (arrayCells array data prev next items ++
        (cells ItemFields.node none none item ++ rest)) store)
    {fuel : Nat}
    (large : unused < fuel) :
    Yields lost unused (arrayCells array data prev next (items ++ [item]) ++ rest)
      (Store.addItemToArray fuel array item.address store) := by
  have linked := consists.linkBehind
  have itemsFirst := consists.perm List.perm_middle.symm
  unfold arrayCells at consists
  rw [Store.addItemToArray, consists.load, Outcome.ok_bind]
  cases items with
  | nil => exact linked
  | cons first items =>
      obtain ⟨last, isLast⟩ : ∃ last, exit none (first :: items) = some last := by
        rw [← Option.ne_none_iff_exists', ne_eq, exit_eq_none_iff]
        exact List.cons_ne_nil first items
      rw [isLast] at linked
      simp only [ItemFields.node, entry_cons,
        itemsFirst.lastItem (entry_cons none first items) isLast large, Outcome.ok_bind]
      exact linked

theorem Consists.addItemToObject
    {items : List PlacedItem}
    {item : PlacedItem}
    (consists : Consists lost unused
      (arrayCells array data prev next items ++
        (cells ItemFields.node none none item ++ rest)) store)
    (string : CString)
    {fuel : Nat}
    (large : unused < fuel) :
    Yields lost unused
      (arrayCells array data prev next (items ++ [item.rename string]) ++ rest)
      (Store.addItemToObject fuel array string item.address store) := by
  have named := (consists.perm (List.perm_append_comm_assoc _ _ _)).writeString string
  unfold Store.addItemToObject
  refine named.bind fun store consists => ?_
  exact (consists.perm (List.perm_append_comm_assoc _ _ _)).addItemToArray large

/-- An item leaves its array, and nothing links to it any more. -/
theorem Consists.unlink
    {before behind : List PlacedItem}
    {c : PlacedItem}
    (consists : Consists lost unused
      (arrayCells array data prev next (before ++ c :: behind) ++ rest) store) :
    Yields lost unused
      (arrayCells array data prev next (before ++ behind) ++
        (cells ItemFields.node none none c ++ rest))
      (Store.unlink array c.address store) := by
  have itemsFirst := consists.perm List.perm_middle.symm
  have isFirst := itemsFirst.isFirst_iff
  rw [arrayCells, segment_append, segment_cons, entry_cons] at consists
  have cFirst : Consists lost unused
      (cells ItemFields.node (exit none before) (entry none behind) c ++
        (segment ItemFields.node none (some c.address) before ++
          (segment ItemFields.node (some c.address) none behind ++
            ((array, data.node ⟨prev, next, entry none (before ++ c :: behind)⟩) :: rest))))
      store :=
    consists.perm (perm_of_count fun cell => by
      simp only [List.count_append, List.count_cons]
      omega)
  unfold Store.unlink
  rw [cFirst.loadItem, Outcome.ok_bind]
  -- The item in front of `c` links to the one behind it.
  have beforeFirst : Consists lost unused
      (segment ItemFields.node none (some c.address) before ++
        (cells ItemFields.node (exit none before) (entry none behind) c ++
          (segment ItemFields.node (some c.address) none behind ++
            ((array, data.node ⟨prev, next, entry none (before ++ c :: behind)⟩) :: rest))))
      store :=
    cFirst.perm (List.perm_append_comm_assoc _ _ _)
  refine (beforeFirst.writeExit (entry none behind)).bind fun store consists => ?_
  have cFirst := consists.perm (List.perm_append_comm_assoc _ _ _)
  rw [cFirst.loadItem, Outcome.ok_bind]
  -- The item behind `c` links to the one in front of it.
  have behindFirst : Consists lost unused
      (segment ItemFields.node (some c.address) none behind ++
        (cells ItemFields.node (exit none before) (entry none behind) c ++
          (segment ItemFields.node none (entry none behind) before ++
            ((array, data.node ⟨prev, next, entry none (before ++ c :: behind)⟩) :: rest))))
      store :=
    cFirst.perm (perm_of_count fun cell => by
      simp only [List.count_append, List.count_cons]
      omega)
  refine (behindFirst.writeEntry (exit none before)).bind fun store consists => ?_
  have cFirst := consists.perm (List.perm_append_comm_assoc _ _ _)
  have arrayFirst : Consists lost unused
      ((array, data.node ⟨prev, next, entry none (before ++ c :: behind)⟩) ::
        (cells ItemFields.node (exit none before) (entry none behind) c ++
          (segment ItemFields.node none none (before ++ behind) ++ rest)))
      store := by
    rw [segment_append]
    exact cFirst.perm (perm_of_count fun cell => by
      simp only [List.count_append, List.count_cons]
      omega)
  -- The array points to the item behind `c` if none is in front of it.
  have pointed : Yields lost unused
      ((array, data.node ⟨prev, next, entry none (before ++ behind)⟩) ::
        (cells ItemFields.node (exit none before) (entry none behind) c ++
          (segment ItemFields.node none none (before ++ behind) ++ rest)))
      (passFirst array c.address store) := by
    rw [passFirst, cFirst.loadItem, Outcome.ok_bind, arrayFirst.load, Outcome.ok_bind,
      ItemFields.node_child]
    by_cases isEmpty : before = []
    · rw [if_pos (isFirst.mpr isEmpty)]
      subst isEmpty
      exact arrayFirst.writeChild (entry none behind)
    · rw [if_neg (isFirst.not.mpr isEmpty)]
      obtain ⟨first, before, rfl⟩ := List.exists_cons_of_ne_nil isEmpty
      exact arrayFirst.yields
  refine pointed.bind fun store consists => ?_
  have cFirst : Consists lost unused
      (cells ItemFields.node (exit none before) (entry none behind) c ++
        (arrayCells array data prev next (before ++ behind) ++ rest)) store :=
    consists.perm (perm_of_count fun cell => by
      simp only [arrayCells, List.count_append, List.count_cons]
      omega)
  have unlinked : Yields lost unused
      (cells ItemFields.node none none c ++
        (arrayCells array data prev next (before ++ behind) ++ rest))
      (store.write c.address ({ · with next := none, prev := none })) :=
    cFirst.writeLinks fun fields child => rfl
  exact unlinked.perm (List.perm_append_comm_assoc _ _ _)

/-- What is in front of an item, an item or the array, links to another one instead. -/
theorem Consists.linkFront
    {before : List PlacedItem}
    {c newitem : Address}
    (consists : Consists lost unused
      (segment ItemFields.node none (some c) before ++
        ((array, data.node ⟨prev, next, entry (some c) before⟩) :: rest)) store)
    (isFirst : entry (some c) before = some c ↔ before = []) :
    Yields lost unused
      (segment ItemFields.node none (some newitem) before ++
        ((array, data.node ⟨prev, next, entry (some newitem) before⟩) :: rest))
      (Store.linkFront array c (exit none before) newitem store) := by
  have arrayFirst := consists.perm List.perm_middle
  rw [Store.linkFront, arrayFirst.load, Outcome.ok_bind, ItemFields.node_child]
  by_cases isEmpty : before = []
  · rw [if_pos (isFirst.mpr isEmpty)]
    subst isEmpty
    rw [segment_nil, List.nil_append] at arrayFirst ⊢
    exact arrayFirst.writeChild (some newitem)
  · rw [if_neg (isFirst.not.mpr isEmpty)]
    have wrote := consists.writeExit (some newitem)
    obtain ⟨last, isLast⟩ : ∃ last, exit none before = some last := by
      rwa [← Option.ne_none_iff_exists', ne_eq, exit_eq_none_iff]
    rw [isLast] at wrote ⊢
    obtain ⟨first, before, rfl⟩ := List.exists_cons_of_ne_nil isEmpty
    exact wrote

/-- Another item takes the place of an item, and nothing links to that one any more. -/
theorem Consists.relink
    {before behind : List PlacedItem}
    {c item : PlacedItem}
    (consists : Consists lost unused
      (arrayCells array data prev next (before ++ c :: behind) ++
        (cells ItemFields.node none none item ++ rest)) store) :
    Yields lost unused
      (arrayCells array data prev next (before ++ item :: behind) ++
        (cells ItemFields.node none none c ++ rest))
      (Store.relink array c.address item.address store) := by
  have isFirst := (consists.perm List.perm_middle.symm).isFirst_iff
  rw [arrayCells, segment_append, segment_cons, entry_cons] at consists
  have cFirst : Consists lost unused
      (cells ItemFields.node (exit none before) (entry none behind) c ++
        (cells ItemFields.node none none item ++
          (segment ItemFields.node none (some c.address) before ++
            (segment ItemFields.node (some c.address) none behind ++
              ((array, data.node ⟨prev, next, entry none (before ++ c :: behind)⟩) ::
                rest))))) store :=
    consists.perm (perm_of_count fun cell => by
      simp only [List.count_append, List.count_cons]
      omega)
  unfold Store.relink
  rw [cFirst.loadItem, Outcome.ok_bind]
  -- The new item takes over the neighbours of `c`.
  have itemFirst := cFirst.perm (List.perm_append_comm_assoc _ _ _)
  have taken : Yields lost unused
      (cells ItemFields.node (exit none before) (entry none behind) item ++
        (cells ItemFields.node (exit none before) (entry none behind) c ++
          (segment ItemFields.node none (some c.address) before ++
            (segment ItemFields.node (some c.address) none behind ++
              ((array, data.node ⟨prev, next, entry none (before ++ c :: behind)⟩) ::
                rest)))))
      (store.write item.address
        ({ · with next := entry none behind, prev := exit none before })) :=
    itemFirst.writeLinks fun fields child => rfl
  refine taken.bind fun store consists => ?_
  -- The item behind `c` links to it, and what is in front of `c` does.
  have behindFirst : Consists lost unused
      (segment ItemFields.node (some c.address) none behind ++
        (segment ItemFields.node none (some c.address) before ++
          ((array, data.node ⟨prev, next, entry none (before ++ c :: behind)⟩) ::
            (cells ItemFields.node (exit none before) (entry none behind) item ++
              (cells ItemFields.node (exit none before) (entry none behind) c ++ rest)))))
      store :=
    consists.perm (perm_of_count fun cell => by
      simp only [List.count_append, List.count_cons]
      omega)
  refine (behindFirst.writeEntry (some item.address)).bind fun store consists => ?_
  have beforeFirst : Consists lost unused
      (segment ItemFields.node none (some c.address) before ++
        ((array, data.node ⟨prev, next, entry (some c.address) before⟩) ::
          (segment ItemFields.node (some item.address) none behind ++
            (cells ItemFields.node (exit none before) (entry none behind) item ++
              (cells ItemFields.node (exit none before) (entry none behind) c ++ rest)))))
      store := by
    rw [entry_append, entry_cons] at consists
    exact consists.perm (perm_of_count fun cell => by
      simp only [List.count_append, List.count_cons]
      omega)
  rw [entry_append, entry_cons] at isFirst
  refine (beforeFirst.linkFront isFirst).bind fun store consists => ?_
  have cFirst : Consists lost unused
      (cells ItemFields.node (exit none before) (entry none behind) c ++
        (arrayCells array data prev next (before ++ item :: behind) ++ rest)) store := by
    rw [arrayCells, entry_append, entry_cons, segment_append, segment_cons, entry_cons]
    exact consists.perm (perm_of_count fun cell => by
      simp only [List.count_append, List.count_cons]
      omega)
  have unlinked : Yields lost unused
      (cells ItemFields.node none none c ++
        (arrayCells array data prev next (before ++ item :: behind) ++ rest))
      (store.write c.address ({ · with next := none, prev := none })) :=
    cFirst.writeLinks fun fields child => rfl
  exact unlinked.perm (List.perm_append_comm_assoc _ _ _)

section Items

variable {child : List PlacedItem}
variable (consists : Consists lost unused (arrayCells array data prev next child ++ rest) store)

include consists

theorem Consists.loadArray :
    store.load array = .ok (data.node ⟨prev, next, entry none child⟩) :=
  consists.load

theorem Consists.itemsFirst :
    Consists lost unused
      (segment ItemFields.node none none child ++
        ((array, data.node ⟨prev, next, entry none child⟩) :: rest)) store :=
  consists.perm List.perm_middle.symm

/-- The item at a place is detached, if there is one. -/
theorem Consists.detachItemFromArray (which : Int) :
    Returns (child[which.toNat]?.map Tree.address) lost unused
      (arrayCells array data prev next (child.eraseIdx which.toNat) ++
        (rootCells ItemFields.node child[which.toNat]?.toList ++ rest))
      (Store.detachItemFromArray array which store) := by
  rw [Store.detachItemFromArray, consists.loadArray, Outcome.ok_bind, ItemFields.node_child,
    consists.itemsFirst.itemAt, Outcome.ok_bind]
  cases there : child[which.toNat]? with
  | none =>
      rw [List.eraseIdx_of_length_le (List.getElem?_eq_none_iff.mp there)]
      exact consists.yields.returns
  | some c =>
      obtain ⟨before, behind, split, -, place⟩ := KeyedList.exists_split there c
      rw [split] at consists
      rw [split, ← place, List.eraseIdx_append_of_length_le (Nat.le_refl _), Nat.sub_self,
        List.eraseIdx_cons_zero, Option.toList_some, rootCells_cons, rootCells_nil,
        List.append_nil]
      exact consists.unlink.returns

theorem Consists.deleteItemFromArray
    (which : Int)
    {fuel : Nat}
    (large : unused < fuel) :
    Yields lost unused
      (arrayCells array data prev next (child.eraseIdx which.toNat) ++ rest)
      (Store.deleteItemFromArray fuel array which store) := by
  obtain ⟨after, detached, consistsAfter⟩ := consists.detachItemFromArray which
  rw [Store.deleteItemFromArray, detached, Outcome.ok_bind]
  have itemFirst := consistsAfter.perm (List.perm_append_comm_assoc _ _ _)
  exact itemFirst.delete large

/-- The place of the first item of a name. -/
theorem Consists.placeLike
    (string : CString)
    {fuel : Nat}
    (large : unused < fuel) :
    Store.indexLike string fuel 0 (entry none child) store =
      .ok (child.findIdx? (PlacedItem.namedLike string)) :=
  consists.itemsFirst.indexLike string large

theorem Consists.detachItemFromObject
    (string : CString)
    {fuel : Nat}
    (large : unused < fuel) :
    Returns ((child.find? (PlacedItem.namedLike string)).map Tree.address) lost unused
      (arrayCells array data prev next (child.eraseP (PlacedItem.namedLike string)) ++
        (rootCells ItemFields.node (child.find? (PlacedItem.namedLike string)).toList ++
          rest))
      (Store.detachItemFromObject fuel array string store) := by
  rw [Store.detachItemFromObject, consists.loadArray, Outcome.ok_bind,
    ItemFields.node_child, consists.placeLike string large, Outcome.ok_bind,
    List.find?_eq_bind_findIdx?_getElem?, List.eraseP_eq_eraseIdx]
  cases child.findIdx? (PlacedItem.namedLike string) with
  | none => exact consists.yields.returns
  | some i => exact consists.detachItemFromArray i

theorem Consists.deleteItemFromObject
    (string : CString)
    {fuel : Nat}
    (large : unused < fuel) :
    Yields lost unused
      (arrayCells array data prev next (child.eraseP (PlacedItem.namedLike string)) ++ rest)
      (Store.deleteItemFromObject fuel array string store) := by
  obtain ⟨after, detached, consistsAfter⟩ := consists.detachItemFromObject string large
  rw [Store.deleteItemFromObject, detached, Outcome.ok_bind]
  have itemFirst := consistsAfter.perm (List.perm_append_comm_assoc _ _ _)
  exact itemFirst.delete large

/-- Nothing happens if no item has the name. -/
theorem Consists.replaceItemInObject_none
    {string : CString}
    (absent : child.findIdx? (PlacedItem.namedLike string) = none)
    {fuel : Nat}
    (large : unused < fuel)
    (newitem : Address) :
    Store.replaceItemInObject fuel array string newitem store = .ok store := by
  rw [Store.replaceItemInObject, consists.loadArray, Outcome.ok_bind,
    ItemFields.node_child, consists.placeLike string large, absent]
  rfl

/-- Nothing happens if no item stands at the place. -/
theorem Consists.replaceItemInArray_none
    {which : Nat}
    (absent : child[which]? = none)
    (fuel : Nat)
    (newitem : Address) :
    Store.replaceItemInArray fuel array which newitem store = .ok store := by
  rw [Store.replaceItemInArray, consists.loadArray, Outcome.ok_bind, ItemFields.node_child,
    consists.itemsFirst.itemAt, absent]
  rfl

end Items

section Replace

variable {child : List PlacedItem} {item : PlacedItem}
variable (consists : Consists lost unused
  (arrayCells array data prev next child ++
    (cells ItemFields.node none none item ++ rest)) store)

include consists

/-- The item at a place is replaced by another one, and deleted. -/
theorem Consists.replaceItemInArray
    {c : PlacedItem}
    {which : Nat}
    (there : child[which]? = some c)
    {fuel : Nat}
    (large : unused < fuel) :
    Yields lost unused
      (arrayCells array data prev next (child.set which item) ++ rest)
      (Store.replaceItemInArray fuel array which item.address store) := by
  rw [Store.replaceItemInArray, consists.loadArray, Outcome.ok_bind, ItemFields.node_child,
    consists.itemsFirst.itemAt, there, Outcome.ok_bind]
  obtain ⟨before, behind, rfl, written, -⟩ := KeyedList.exists_split there item
  rw [written]
  refine consists.relink.bind fun store consists => ?_
  have cFirst : Consists lost unused
      (rootCells ItemFields.node (some c).toList ++
        (arrayCells array data prev next (before ++ item :: behind) ++ rest)) store := by
    rw [Option.toList_some, rootCells_cons, rootCells_nil, List.append_nil]
    exact consists.perm (List.perm_append_comm_assoc _ _ _)
  exact cFirst.delete large

theorem Consists.replaceItemInObject
    (string : CString)
    {which : Nat}
    (found : child.findIdx? (PlacedItem.namedLike string) = some which)
    {fuel : Nat}
    (large : unused < fuel) :
    Yields (lost ++ item.data.string.toList) unused
      (arrayCells array data prev next (child.set which (item.rename string)) ++ rest)
      (Store.replaceItemInObject fuel array string item.address store) := by
  rw [Store.replaceItemInObject, consists.loadArray, Outcome.ok_bind,
    ItemFields.node_child, consists.placeLike string large, found, Outcome.ok_bind]
  have itemFirst := consists.perm (List.perm_append_comm_assoc _ _ _)
  have named := (itemFirst.lose item.data.string).writeString string
  simp only [itemFirst.loadItem, Outcome.ok_bind, ItemFields.node_string]
  refine named.bind fun store consists => ?_
  obtain ⟨inRange, -⟩ := List.findIdx?_eq_some_iff_getElem.mp found
  exact (consists.perm (List.perm_append_comm_assoc _ _ _)).replaceItemInArray
    (List.getElem?_eq_getElem inRange) large

end Replace

end Calls

/-! ## New trees -/

/-- A memory with another node that is linked to nothing. -/
theorem Consists.createItem
    {store : Store}
    {unused : Address}
    {nodes : List (Address × Node)}
    (consists : Consists lost unused nodes store)
    (data : ItemFields) :
    Consists lost (unused + 1) (arrayCells unused data none none [] ++ nodes)
      (store.create (data.node ⟨none, none, none⟩)) := by
  rw [arrayCells, segment_nil]
  exact consists.create (data.node ⟨none, none, none⟩)

theorem arrayCells_eq
    (array : Address)
    (data : ItemFields)
    (child : List PlacedItem) :
    arrayCells array data none none child =
      cells ItemFields.node none none ⟨array, data, child⟩ := by
  rw [arrayCells, cells]

/-- New items under their addresses. -/
def newItems (address : Address) : List ItemFields → List PlacedItem
  | [] => []
  | data :: rest => ⟨address, data, []⟩ :: newItems (address + 1) rest

theorem sizeAll_newItems (address : Address) (new : List ItemFields) :
    PlacedItem.sizeAll (newItems address new) = new.length := by
  induction new generalizing address with
  | nil => rfl
  | cons data new inductionHypothesis =>
      rw [newItems, PlacedItem.sizeAll, inductionHypothesis, PlacedItem.size,
        PlacedItem.sizeAll, List.length_cons, Nat.zero_add, Nat.add_comm]

/-- The loop of `cJSON_CreateIntArray` links the new items one behind the other. -/
theorem Consists.createItems
    {store : Store}
    {unused array : Address}
    {data : ItemFields}
    {rest : List (Address × Node)}
    (items : List PlacedItem)
    (new : List ItemFields)
    (consists : Consists lost unused (arrayCells array data none none items ++ rest) store) :
    Yields lost (unused + new.length)
      (arrayCells array data none none (items ++ newItems unused new) ++ rest)
      (Store.createItems array (exit none items)
        (new.map fun own => own.node ⟨none, none, none⟩) store) := by
  induction new generalizing store unused items with
  | nil =>
      rw [newItems, List.append_nil]
      exact consists.yields
  | cons own new inductionHypothesis =>
      have created := consists.createItem own
      rw [arrayCells_eq unused own] at created
      have linked := (created.perm (List.perm_append_comm_assoc _ _ _)).linkBehind
      rw [List.map_cons, Store.createItems, consists.unused]
      refine linked.bind fun store consists => ?_
      have behind := inductionHypothesis _ consists
      rw [exit_append, exit_cons, exit_nil, List.append_assoc] at behind
      rw [newItems, List.length_cons, Nat.add_comm new.length, ← Nat.add_assoc]
      exact behind

/-- The new items of an array, all of them created by the call. -/
theorem Consists.createArrayOf
    {store : Store}
    {unused : Address}
    {nodes : List (Address × Node)}
    (consists : Consists lost unused nodes store)
    (new : List ItemFields) :
    Returns unused lost (unused + 1 + new.length)
      (cells ItemFields.node none none
          ⟨unused, Node.createArray.fields, newItems (unused + 1) new⟩ ++ nodes)
      (Store.createArrayOf (new.map fun own => own.node ⟨none, none, none⟩) store) := by
  have items := (consists.createItem Node.createArray.fields).createItems [] new
  rw [List.nil_append, arrayCells_eq] at items
  rw [Store.createArrayOf, consists.unused]
  exact items.returns

mutual

/-- A copy is a tree of new items, and everything else stays as it is. -/
theorem Consists.duplicate
    (fuel : Nat)
    {store : Store}
    {unused : Address}
    {prev next : Option Address}
    {rest : List (Address × Node)}
    {item : PlacedItem}
    (consists : Consists lost unused (cells ItemFields.node prev next item ++ rest) store)
    (large : 2 * item.size ≤ fuel) :
    Returns unused lost (unused + item.size)
      (cells ItemFields.node none none (item.copy unused) ++
        (cells ItemFields.node prev next item ++ rest))
      (Store.duplicate fuel item.address true store) := by
  obtain ⟨address, data, child⟩ := item
  rw [PlacedItem.size] at large ⊢
  cases fuel with
  | zero => exact absurd large (by omega)
  | succ fuel =>
      have created := consists.createItem data
      have childFirst : Consists lost (unused + 1)
          (arrayCells unused data none none [] ++
            (segment ItemFields.node none none child ++
              ((address, data.node ⟨prev, next, entry none child⟩) :: rest)))
          (store.create (data.node ⟨none, none, none⟩)) := by
        rw [cells] at created
        exact created.perm (List.perm_middle.symm.append_left _)
      obtain ⟨after, copied, consistsAfter⟩ :=
        Consists.duplicateChildren fuel [] child childFirst (by omega)
      refine ⟨after, ?_, ?_⟩
      · rw [Store.duplicate, consists.loadItem, Outcome.ok_bind, consists.unused, if_pos rfl]
        exact congrArg (· >>= fun after => Except.ok (unused, after)) copied
      · rw [List.nil_append, arrayCells_eq] at consistsAfter
        rw [PlacedItem.copy, cells_eq _ prev, Nat.add_comm (PlacedItem.sizeAll child),
          ← Nat.add_assoc]
        exact consistsAfter.perm (List.perm_middle.append_left _)

/-- The loop of the copy links the copies one behind the other. -/
theorem Consists.duplicateChildren
    (fuel : Nat)
    {store : Store}
    {unused array : Address}
    {data : ItemFields}
    {prev : Option Address}
    {rest : List (Address × Node)}
    (copies items : List PlacedItem)
    (consists : Consists lost unused
      (arrayCells array data none none copies ++
        (segment ItemFields.node prev none items ++ rest)) store)
    (large : 2 * PlacedItem.sizeAll items < fuel) :
    Yields lost (unused + PlacedItem.sizeAll items)
      (arrayCells array data none none (copies ++ PlacedItem.copyAll unused items) ++
        (segment ItemFields.node prev none items ++ rest))
      (Store.duplicateChildren fuel array (exit none copies) (entry none items) store) := by
  cases fuel with
  | zero => exact absurd large (Nat.not_lt_zero _)
  | succ fuel =>
      cases items with
      | nil =>
          rw [PlacedItem.copyAll, List.append_nil]
          exact consists.yields
      | cons item items =>
          rw [PlacedItem.sizeAll] at large ⊢
          have positive := item.size_pos
          rw [segment_cons, List.append_assoc] at consists
          obtain ⟨copied, itemCopied, consists⟩ := Consists.duplicate fuel
            (consists.perm (List.perm_append_comm_assoc _ _ _)) (by omega)
          have copiesFirst : Consists lost (unused + item.size)
              (arrayCells array data none none copies ++
                (cells ItemFields.node none none (item.copy unused) ++
                  (cells ItemFields.node prev (entry none items) item ++
                    (segment ItemFields.node (some item.address) none items ++ rest))))
              copied :=
            consists.perm (perm_of_count fun cell => by
              simp only [List.count_append]
              omega)
          have linked := copiesFirst.linkBehind
          rw [item.copy_address] at linked
          rw [entry_cons, Store.duplicateChildren, itemCopied, Outcome.ok_bind]
          refine linked.bind fun store consists => ?_
          have itemFirst := consists.perm (List.perm_append_comm_assoc _ _ _)
          rw [itemFirst.loadItem, Outcome.ok_bind]
          have itemsFirst : Consists lost (unused + item.size)
              (arrayCells array data none none (copies ++ [item.copy unused]) ++
                (segment ItemFields.node (some item.address) none items ++
                  (cells ItemFields.node prev (entry none items) item ++ rest))) store :=
            consists.perm ((List.perm_append_comm_assoc _ _ _).append_left _)
          have behind := Consists.duplicateChildren fuel _ items itemsFirst (by omega)
          rw [exit_append, exit_cons, exit_nil, item.copy_address, List.append_assoc,
            Nat.add_assoc] at behind
          rw [PlacedItem.copyAll, segment_cons, List.append_assoc]
          exact behind.perm ((List.perm_append_comm_assoc _ _ _).append_left _)

end

/-- A copy that is not recursive is an item without children. -/
theorem Consists.duplicateFields
    {store : Store}
    {unused : Address}
    {prev next : Option Address}
    {item : PlacedItem}
    {rest : List (Address × Node)}
    (consists : Consists lost unused (cells ItemFields.node prev next item ++ rest) store)
    (fuel : Nat) :
    Returns unused lost (unused + 1)
      (cells ItemFields.node none none ⟨unused, item.data, []⟩ ++
        (cells ItemFields.node prev next item ++ rest))
      (Store.duplicate (fuel + 1) item.address false store) := by
  have created := consists.createItem item.data
  rw [arrayCells_eq] at created
  rw [Store.duplicate, consists.loadItem, Outcome.ok_bind, consists.unused,
    if_neg Bool.false_ne_true]
  exact ⟨_, rfl, created⟩

end Store
end ProtobufSandbox
