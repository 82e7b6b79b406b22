import ProtobufSandbox.Json.StoreTrees

/-!
# Replacing an item in memory

An item that is replaced leaves the chain of its array, with the new item in its
place, and its addresses are removed.
-/

namespace ProtobufSandbox
namespace Store

open Layout LinkedChain

/-- A write through a pointer that may be null. -/
theorem exists_writeIf
    (store : Store)
    (address : Option Address)
    (change : Node → Node)
    (there : ∀ present ∈ address, ∃ node, store.node present = some node) :
    ∃ after, store.writeIf address change = .ok after ∧
      ∀ other, after.node other =
        if address = some other then (store.node other).map change
        else store.node other := by
  cases address with
  | none => exact ⟨store, rfl, fun other => rfl⟩
  | some address =>
      obtain ⟨node, present⟩ := there address rfl
      refine ⟨_, write_of_node present change, fun other => ?_⟩
      simp only [node_modify, Option.some.injEq]

/-- What a node holds once an item `c` is replaced. -/
def relinked
    (array c newitem : Address)
    (item : Node)
    (address : Address)
    (own : Node) : Node :=
  if address = newitem then { own with next := item.next, prev := item.prev }
  else if address = c then { own with next := none, prev := none }
  else if address = array then
    if item.prev = none then { own with child := some newitem } else own
  else
    { own with
      prev := if item.next = some address then some newitem else own.prev
      next := if item.prev = some address then some newitem else own.next }

/-- The link in front of an item, where the item is the first one exactly if none is in
front of it. -/
theorem exists_linkFront
    {store : Store}
    {array c : Address}
    {arrayNode : Node}
    {prev : Option Address}
    (arrayThere : store.node array = some arrayNode)
    (isFirst : arrayNode.child = some c ↔ prev = none)
    (there : ∀ present ∈ prev, ∃ node, store.node present = some node)
    (newitem : Address) :
    ∃ after, linkFront array c prev newitem store = .ok after ∧
      ∀ other, after.node other = (store.node other).map fun own =>
        if prev = none ∧ other = array then { own with child := some newitem }
        else if prev = some other then { own with next := some newitem }
        else own := by
  rw [linkFront, load_of_node arrayThere, Outcome.ok_bind]
  cases prev with
  | none =>
      rw [if_pos (isFirst.mpr rfl), write_of_node arrayThere]
      refine ⟨_, rfl, fun other => ?_⟩
      rw [node_modify]
      by_cases same : array = other
      · simp [same]
      · simp [same, Ne.symm same]
  | some prev =>
      obtain ⟨node, present⟩ := there prev rfl
      have notFirst : arrayNode.child ≠ some c := by
        rw [ne_eq, isFirst]
        exact Option.some_ne_none prev
      rw [if_neg notFirst, writeThrough, write_of_node present]
      refine ⟨_, rfl, fun other => ?_⟩
      rw [node_modify]
      by_cases same : prev = other
      · simp [same]
      · simp [same]

/-- Relinking writes these nodes, if they are all there. -/
theorem relink_spec
    {store : Store}
    {array c newitem : Address}
    {arrayNode item new : Node}
    (arrayThere : store.node array = some arrayNode)
    (there : store.node c = some item)
    (newThere : store.node newitem = some new)
    (distinct : [array, newitem, c].Nodup)
    (isFirst : arrayNode.child = some c ↔ item.prev = none)
    (nextThere : ∀ next ∈ item.next,
      next ∉ [array, newitem, c] ∧ ∃ node, store.node next = some node)
    (prevThere : ∀ prev ∈ item.prev,
      prev ∉ [array, newitem, c] ∧ ∃ node, store.node prev = some node) :
    ∃ after, relink array c newitem store = .ok after ∧
      ∀ address, after.node address =
        (store.node address).map (relinked array c newitem item address) := by
  -- The links of the item lead to none of the three.
  have notNext {address} (isOther : address ∈ [array, newitem, c]) :
      item.next ≠ some address := fun same => (nextThere address same).1 isOther
  have notPrev {address} (isOther : address ∈ [array, newitem, c]) :
      item.prev ≠ some address := fun same => (prevThere address same).1 isOther
  have arrayIn : array ∈ [array, newitem, c] := by simp
  have newIn : newitem ∈ [array, newitem, c] := by simp
  have cIn : c ∈ [array, newitem, c] := by simp
  simp only [List.nodup_cons, List.mem_cons, List.not_mem_nil, not_or, or_false,
    not_false_eq_true, List.nodup_nil, and_true] at distinct nextThere prevThere
  obtain ⟨⟨arrayNew, arrayC⟩, newC⟩ := distinct
  unfold relink
  rw [load_of_node there, Outcome.ok_bind, write_of_node newThere, Outcome.ok_bind]
  obtain ⟨linkedNext, wroteNext, isLinkedNext⟩ := exists_writeIf
    (store.modify newitem ({ · with next := item.next, prev := item.prev })) item.next
    ({ · with prev := some newitem }) (by
      intro next isNext
      obtain ⟨⟨-, notNew, -⟩, node, present⟩ := nextThere next isNext
      exact ⟨node, by rw [node_modify, if_neg (Ne.symm notNew), present]⟩)
  have keepsOther (address) (notNew : newitem ≠ address) :
      linkedNext.node address = (store.node address).map fun own =>
        if item.next = some address then { own with prev := some newitem } else own := by
    rw [isLinkedNext, node_modify, if_neg notNew]
    split <;> simp
  have arrayStill : linkedNext.node array = some arrayNode := by
    rw [keepsOther array (Ne.symm arrayNew), arrayThere, Option.map_some,
      if_neg (notNext arrayIn)]
  obtain ⟨linkedPrev, wrotePrev, isLinkedPrev⟩ :=
    exists_linkFront arrayStill isFirst (by
      intro prev isPrev
      obtain ⟨⟨-, notNew, -⟩, node, present⟩ := prevThere prev isPrev
      rw [keepsOther prev (Ne.symm notNew), present]
      exact ⟨_, rfl⟩) newitem
  rw [wroteNext, Outcome.ok_bind, wrotePrev, Outcome.ok_bind]
  have cStill : linkedPrev.node c = some item := by
    rw [isLinkedPrev, keepsOther c newC, there, Option.map_some, Option.map_some,
      if_neg (notNext cIn), if_neg (fun both => arrayC both.2.symm),
      if_neg (notPrev cIn)]
  refine ⟨_, write_of_node cStill _, fun address => ?_⟩
  rw [node_modify, isLinkedPrev, isLinkedNext, node_modify]
  unfold relinked
  by_cases isNew : address = newitem
  · simp [isNew, newThere, Ne.symm newC, Ne.symm arrayNew, notNext newIn,
      notPrev newIn]
  · by_cases isC : address = c
    · simp [isC, Ne.symm newC, newC, Ne.symm arrayC, notNext cIn,
        notPrev cIn]
    · by_cases isArray : address = array
      · simp [isArray, arrayNew, arrayC, Ne.symm arrayC, Ne.symm arrayNew,
          notNext arrayIn, notPrev arrayIn]
      · simp only [if_neg isNew, if_neg isC, if_neg (Ne.symm isNew),
          if_neg (Ne.symm isC), isArray, and_false, if_false]
        cases store.node address with
        | none => simp
        | some own =>
            by_cases isNext : item.next = some address
            · by_cases isPrev : item.prev = some address
              · simp [isNext, isPrev]
              · simp [isNext, isPrev]
            · by_cases isPrev : item.prev = some address
              · simp [isNext, isPrev]
              · simp [isNext, isPrev]

section Replaced

variable {store : Store} {array newitem : Address} {arrayNode item new : Node}
variable {layouts : List Layout} {items : List CJSON} {which : Nat} {layout : Layout}

section Links

variable (held : Holds store none arrayNode.child layouts items)
variable (distinct : (array :: newitem :: addressesOf layouts).Nodup)
variable (there : layouts[which]? = some layout)
variable (itemThere : store.node layout.address = some item)

include held there itemThere in
/-- The links of an item of the array. -/
theorem links_of_place :
    (⟨item.prev, item.next⟩ : Links Address) = neighbours none (chain layouts) which := by
  have known := held.linked.linked (getElem?_chain there)
  rw [links, itemThere] at known
  exact Option.some.inj known

include held distinct there itemThere in
/-- The neighbours of an item are other items of the array. -/
theorem neighbour_mem
    {address : Address}
    (neighbour : item.next = some address ∨ item.prev = some address) :
    address ∈ chain layouts ∧ address ≠ layout.address := by
  have itemLinks := links_of_place held there itemThere
  have chainDistinct : (chain layouts).Nodup :=
    (chain_sublist layouts).nodup (List.nodup_cons.mp (List.nodup_cons.mp distinct).2).2
  rcases neighbour with behind | front
  · have isNext : (neighbours none (chain layouts) which).next = some address := by
      rw [← itemLinks, behind]
    refine ⟨List.mem_of_getElem? isNext, ?_⟩
    rintro rfl
    rw [next_eq_iff chainDistinct (getElem?_chain there)] at isNext
    omega
  · have isPrev : (neighbours none (chain layouts) which).prev = some address := by
      rw [← itemLinks, front]
    refine ⟨mem_of_prev isPrev, ?_⟩
    rintro rfl
    rw [prev_eq_iff chainDistinct (getElem?_chain there)] at isPrev
    omega

include distinct in
/-- The items of the array are neither the array nor the new item. -/
theorem ne_of_mem
    {address : Address}
    (isAddress : address ∈ addressesOf layouts) :
    address ≠ array ∧ address ≠ newitem := by
  obtain ⟨arrayApart, distinct⟩ := List.nodup_cons.mp distinct
  obtain ⟨newApart, -⟩ := List.nodup_cons.mp distinct
  constructor
  · rintro rfl
    exact arrayApart (List.mem_cons_of_mem _ isAddress)
  · rintro rfl
    exact newApart isAddress

include distinct in
/-- Another item of the array only gets new links. -/
theorem relinked_of_mem
    {address : Address}
    (isItem : address ∈ chain layouts)
    (other : address ≠ layout.address)
    (own : Node) :
    relinked array layout.address newitem item address own =
      { own with
        prev := if item.next = some address then some newitem else own.prev
        next := if item.prev = some address then some newitem else own.next } := by
  obtain ⟨notArray, notNew⟩ := ne_of_mem distinct ((chain_sublist layouts).subset isItem)
  rw [relinked, if_neg notNew, if_neg other, if_neg notArray]

include held distinct there itemThere in
/-- Nothing below the items of the array is written. -/
theorem relinked_below
    {place : Nat}
    {other : Layout}
    {address : Address}
    (isOther : layouts[place]? = some other)
    (isBelow : address ∈ addressesOf other.child)
    (own : Node) :
    relinked array layout.address newitem item address own = own := by
  have apart := (List.nodup_cons.mp (List.nodup_cons.mp distinct).2).2
  obtain ⟨isAddress, notItem⟩ := below_chain apart isOther isBelow
  obtain ⟨notArray, notNew⟩ := ne_of_mem distinct isAddress
  have notC : address ≠ layout.address := by
    rintro rfl
    exact notItem (List.mem_of_getElem? (getElem?_chain there))
  have notNeighbour (neighbour : item.next = some address ∨ item.prev = some address) :
      False :=
    notItem (neighbour_mem held distinct there itemThere neighbour).1
  rw [relinked, if_neg notNew, if_neg notC, if_neg notArray,
    if_neg fun behind => notNeighbour (.inl behind),
    if_neg fun front => notNeighbour (.inr front)]

include held distinct there itemThere in
/-- Relinking an item of an array returns. -/
theorem exists_relink
    (arrayThere : store.node array = some arrayNode)
    (newThere : store.node newitem = some new) :
    ∃ after, relink array layout.address newitem store = .ok after ∧
      ∀ address, after.node address =
        (store.node address).map
          (relinked array layout.address newitem item address) := by
  have linked := held.linked
  have apart := (List.nodup_cons.mp (List.nodup_cons.mp distinct).2).2
  have isThere := getElem?_chain there
  have itemLinks := links_of_place held there itemThere
  have neighbour {address : Address}
      (isNeighbour : item.next = some address ∨ item.prev = some address) :
      address ∉ [array, newitem, layout.address] ∧
        ∃ node, store.node address = some node := by
    obtain ⟨isItem, other⟩ := neighbour_mem held distinct there itemThere isNeighbour
    have isAddress := (chain_sublist layouts).subset isItem
    obtain ⟨notArray, notNew⟩ := ne_of_mem distinct isAddress
    exact ⟨by simp [notArray, notNew, other], held.exists_of_mem isAddress⟩
  have own := ne_of_mem distinct ((chain_sublist layouts).subset (List.mem_of_getElem? isThere))
  have arrayNew : array ≠ newitem := by
    rintro rfl
    exact (List.nodup_cons.mp distinct).1 List.mem_cons_self
  refine relink_spec arrayThere itemThere newThere ?_ ?_
    (fun next behind => neighbour (.inl behind)) fun prev front => neighbour (.inr front)
  · simp [arrayNew, Ne.symm own.1, Ne.symm own.2]
  · have isPrev : item.prev = (neighbours none (chain layouts) which).prev :=
      congrArg Links.prev itemLinks
    rw [linked.first, place_eq_iff ((chain_sublist layouts).nodup apart) isThere, isPrev,
      prev_eq_none_iff isThere, eq_comm]

include distinct there in
/-- The array only gets a new first item, and only if it is the first one that is
replaced. -/
theorem relinked_array :
    relinked array layout.address newitem item array arrayNode =
      if item.prev = none then { arrayNode with child := some newitem } else arrayNode := by
  obtain ⟨arrayC, -⟩ := ne_of_mem distinct
    ((chain_sublist layouts).subset (List.mem_of_getElem? (getElem?_chain there)))
  have arrayNew : array ≠ newitem := by
    rintro rfl
    exact (List.nodup_cons.mp distinct).1 List.mem_cons_self
  rw [relinked, if_neg arrayNew, if_neg (Ne.symm arrayC), if_pos rfl]

include held distinct there itemThere in
/-- The array points to the first item of the new chain. -/
theorem relinked_child :
    (relinked array layout.address newitem item array arrayNode).child =
      ((chain layouts).set which newitem)[0]? := by
  have isThere := getElem?_chain there
  obtain ⟨inRange, -⟩ := List.getElem?_eq_some_iff.mp isThere
  have isFirst : item.prev = none ↔ which = 0 := by
    rw [← prev_eq_none_iff isThere, ← links_of_place held there itemThere]
  rw [relinked_array distinct there]
  by_cases zero : which = 0
  · rw [if_pos (isFirst.mpr zero), zero, List.getElem?_set_self (zero ▸ inRange)]
  · rw [if_neg (isFirst.not.mpr zero), List.getElem?_set_ne zero, held.linked.first]

include held distinct there itemThere in
/-- The new chain is linked, with the new item in the place of the one it replaces. -/
theorem linked_of_relinked
    {after : Store}
    (newThere : store.node newitem = some new)
    (isAfter : ∀ address, after.node address =
      (store.node address).map (relinked array layout.address newitem item address)) :
    Linked after.links none ((chain layouts).set which newitem)[0]?
      ((chain layouts).set which newitem) := by
  have apart := (List.nodup_cons.mp (List.nodup_cons.mp distinct).2).2
  have itemLinks := links_of_place held there itemThere
  refine held.linked.exchange ((chain_sublist layouts).nodup apart) (getElem?_chain there) ?_
    fun node isItem isOther => ?_
  · rw [links, isAfter, newThere, Option.map_some, Option.map_some, ← itemLinks]
    simp [relinked]
  · rw [links, isAfter, links, Option.map_map, Option.map_map, ← itemLinks]
    congr 1
    funext own
    rw [Function.comp_apply, relinked_of_mem distinct isItem isOther]
    rfl

end Links

/-- After relinking the new item stands in the chain of the array, and the item that it
replaces is a tree of its own. -/
theorem relink_of_holds
    (arrayThere : store.node array = some arrayNode)
    (held : Holds store none arrayNode.child layouts items)
    (newThere : store.node newitem = some new)
    (newLeaf : new.child = none)
    (distinct : (array :: newitem :: addressesOf layouts).Nodup)
    (there : layouts[which]? = some layout) :
    ∃ after arrayAfter, relink array layout.address newitem store = .ok after ∧
      after.node array = some arrayAfter ∧
      (∀ below, arrayAfter.item below = arrayNode.item below) ∧
      Holds after none arrayAfter.child (layouts.set which ⟨newitem, []⟩)
        (items.set which (new.item [])) ∧
      ∃ below, Holds after none (some layout.address) [layout] below := by
  obtain ⟨item, below, itemThere, -, belowHeld⟩ := held.exists_node there
  obtain ⟨after, done, isAfter⟩ :=
    exists_relink held distinct there itemThere arrayThere newThere
  have apart := (List.nodup_cons.mp (List.nodup_cons.mp distinct).2).2
  have isThere := getElem?_chain there
  have sameBelow {place : Nat} {other : Layout} (isOther : layouts[place]? = some other)
      (address) (isBelow : address ∈ addressesOf other.child) :
      after.node address = store.node address := by
    have unchanged := relinked_below held distinct there itemThere isOther isBelow
    rw [isAfter, funext unchanged, Option.map_id']
  refine ⟨after, relinked array layout.address newitem item array arrayNode, done, ?_, ?_,
    ?_, ?_⟩
  · rw [isAfter, arrayThere, Option.map_some]
  · intro below
    rw [relinked_array distinct there]
    split <;> rfl
  · refine holds_of_linked ?_ ?_ fun place other isOther => ?_
    · have newChain : chain (layouts.set which ⟨newitem, []⟩) =
          (chain layouts).set which newitem := List.map_set
      rw [relinked_child held distinct there itemThere, newChain]
      exact linked_of_relinked held distinct there itemThere newThere isAfter
    · rw [List.length_set, List.length_set, held.length_eq]
    · rw [List.getElem?_set] at isOther
      by_cases same : which = place
      · obtain ⟨inRange, -⟩ := List.getElem?_eq_some_iff.mp there
        rw [if_pos same, if_pos (same ▸ inRange)] at isOther
        cases isOther
        refine ⟨_, [], by rw [isAfter, newThere, Option.map_some], ?_, ?_⟩
        · rw [← same, List.getElem?_set_self (held.length_eq ▸ inRange)]
          rw [relinked, if_pos rfl]
          rfl
        · rw [relinked, if_pos rfl, newLeaf]
          exact .nil
      · rw [if_neg same] at isOther
        have notC : other.address ≠ layout.address := by
          intro equal
          have atPlace := getElem?_chain isOther
          rw [equal] at atPlace
          exact same ((place_eq_iff ((chain_sublist layouts).nodup apart) atPlace).mp isThere)
        rw [List.getElem?_set_ne same]
        refine held.exists_node_after isOther (isAfter other.address) (fun own => ?_)
          (sameBelow isOther)
        rw [relinked_of_mem distinct (List.mem_of_getElem? (getElem?_chain isOther)) notC]
        exact ⟨rfl, fun below => rfl⟩
  · obtain ⟨-, newC⟩ := ne_of_mem distinct
      ((chain_sublist layouts).subset (List.mem_of_getElem? isThere))
    have detached : after.node layout.address =
        some { item with next := none, prev := none } := by
      rw [isAfter, itemThere, Option.map_some, relinked, if_neg newC, if_pos rfl]
    exact ⟨_, .cons detached rfl (belowHeld.congr (sameBelow there)) .nil⟩

/-- The item at a place of an array is replaced: the new item is linked in its place,
and all of its addresses are removed. -/
theorem replaceItemInArray_of_holds
    (arrayThere : store.node array = some arrayNode)
    (held : Holds store none arrayNode.child layouts items)
    (newThere : store.node newitem = some new)
    (newLeaf : new.child = none)
    (distinct : (array :: newitem :: addressesOf layouts).Nodup)
    (there : layouts[which]? = some layout)
    {fuel : Nat}
    (large : (addressesOf layouts).length < fuel) :
    ∃ after arrayAfter, replaceItemInArray fuel array which newitem store = .ok after ∧
      after.node array = some arrayAfter ∧
      (∀ below, arrayAfter.item below = arrayNode.item below) ∧
      Holds after none arrayAfter.child (layouts.set which ⟨newitem, []⟩)
        (items.set which (new.item [])) ∧
      ∀ address ∈ layout.addresses, after.node address = none := by
  obtain ⟨middle, arrayAfter, done, arrayStill, sameItem, heldAfter, below, single⟩ :=
    relink_of_holds arrayThere held newThere newLeaf distinct there
  have apart := (List.nodup_cons.mp distinct).2
  have sublist := addresses_sublist (List.mem_of_getElem? there)
  have own : addressesOf [layout] = layout.addresses := by
    rw [addressesOf, addressesOf, List.append_nil]
  obtain ⟨after, deleted, isAfter⟩ := delete_of_holds fuel single
    (own ▸ sublist.nodup (List.nodup_cons.mp apart).2)
    (own ▸ Nat.lt_of_le_of_lt sublist.length_le large)
  rw [own] at isAfter
  refine ⟨after, arrayAfter, ?_, ?_, sameItem, heldAfter.congr fun address isAddress => ?_,
    fun address inside => ?_⟩
  · rw [replaceItemInArray, load_of_node arrayThere, Outcome.ok_bind,
      itemAt_of_holds held, Outcome.ok_bind, getElem?_chain there]
    simp only [done, Outcome.ok_bind]
    exact deleted
  · have outside : array ∉ layout.addresses :=
      fun inside => (ne_of_mem distinct (sublist.subset inside)).1 rfl
    rw [isAfter, if_neg outside, arrayStill]
  · rw [isAfter, if_neg (not_mem_addresses_of_set apart there isAddress)]
  · rw [isAfter, if_pos inside]

/-- The first member with a name, ignoring case, is replaced. -/
theorem replaceItemInObject_of_holds
    (arrayThere : store.node array = some arrayNode)
    (held : Holds store none arrayNode.child layouts items)
    (newThere : store.node newitem = some new)
    (newLeaf : new.child = none)
    (distinct : (array :: newitem :: addressesOf layouts).Nodup)
    {string : CString}
    (found : items.findIdx? (fun item => item.namedLike string) = some which)
    (there : layouts[which]? = some layout)
    {fuel : Nat}
    (large : (addressesOf layouts).length < fuel) :
    ∃ after arrayAfter, replaceItemInObject fuel array string newitem store = .ok after ∧
      after.node array = some arrayAfter ∧
      (∀ below, arrayAfter.item below = arrayNode.item below) ∧
      Holds after none arrayAfter.child (layouts.set which ⟨newitem, []⟩)
        (items.set which { new.item [] with string := some string }) ∧
      ∀ address ∈ layout.addresses, after.node address = none := by
  have enough : items.length < fuel :=
    Nat.lt_of_le_of_lt (held.length_eq ▸ length_le_addressesOf layouts) large
  rw [replaceItemInObject, load_of_node arrayThere, Outcome.ok_bind,
    indexLike_of_holds held string 0 enough, found, Option.map_some, Outcome.ok_bind,
    Nat.add_zero]
  have newKept : (store.lose new.string).node newitem = some new := newThere
  simp only [load_of_node newThere, write_of_node newKept, Outcome.ok_bind]
  obtain ⟨arrayApart, apart⟩ := List.nodup_cons.mp distinct
  obtain ⟨newApart, -⟩ := List.nodup_cons.mp apart
  have arrayStill :
      ((store.lose new.string).modify newitem ({ · with string := some string })).node array =
        some arrayNode := by
    have arrayNew : newitem ≠ array := fun same => arrayApart (same ▸ List.mem_cons_self)
    rw [node_modify, if_neg arrayNew, node_lose, arrayThere]
  have newStill :
      ((store.lose new.string).modify newitem ({ · with string := some string })).node newitem =
        some { new with string := some string } := by
    rw [node_modify, if_pos rfl, newKept, Option.map_some]
  refine replaceItemInArray_of_holds arrayStill (held.congr fun address isAddress => ?_)
    newStill newLeaf distinct there large
  have notNew : newitem ≠ address := fun same => newApart (same ▸ isAddress)
  rw [node_modify, if_neg notNew, node_lose]

end Replaced

/-! ## Writes -/

/-- A write to an item of a chain changes what the item says, if it leaves the links and
the children alone. -/
theorem Holds.modify
    {store : Store}
    {prev first : Option Address}
    {layouts : List Layout}
    {items : List CJSON}
    {place : Nat}
    {layout : Layout}
    {change : Node → Node}
    {write : CJSON → CJSON}
    (held : Holds store prev first layouts items)
    (distinct : (addressesOf layouts).Nodup)
    (there : layouts[place]? = some layout)
    (sameLinks : ∀ own, (change own).prev = own.prev ∧ (change own).next = own.next ∧
      (change own).child = own.child)
    (writes : ∀ own below, (change own).item below = write (own.item below)) :
    Holds (store.modify layout.address change) prev first layouts
      (items.modify place write) := by
  have isThere := getElem?_chain there
  have chainDistinct : (chain layouts).Nodup := (chain_sublist layouts).nodup distinct
  have sameBelow {other : Nat} {otherLayout : Layout}
      (isOther : layouts[other]? = some otherLayout)
      (address) (isBelow : address ∈ addressesOf otherLayout.child) :
      (store.modify layout.address change).node address = store.node address := by
    have notItem : layout.address ≠ address := by
      rintro rfl
      exact (below_chain distinct isOther isBelow).2 (List.mem_of_getElem? isThere)
    rw [node_modify, if_neg notItem]
  refine holds_of_linked (held.linked.congr fun node isNode => ?_) ?_
    fun other otherLayout isOther => ?_
  · rw [links, links, node_modify]
    by_cases same : layout.address = node
    · rw [if_pos same, Option.map_map]
      congr 1
      funext own
      obtain ⟨samePrev, sameNext, -⟩ := sameLinks own
      rw [Function.comp_apply, samePrev, sameNext]
    · rw [if_neg same]
  · rw [List.length_modify, held.length_eq]
  · by_cases same : place = other
    · subst same
      obtain rfl : otherLayout = layout := Option.some.inj (isOther.symm.trans there)
      obtain ⟨node, below, nodeThere, isItem, children⟩ := held.exists_node there
      refine ⟨change node, below, ?_, ?_, ?_⟩
      · rw [node_modify, if_pos rfl, nodeThere, Option.map_some]
      · rw [List.getElem?_modify_eq, isItem, writes]
        rfl
      · rw [(sameLinks node).2.2]
        exact children.congr (sameBelow there)
    · have notC : layout.address ≠ otherLayout.address := by
        intro equal
        have atOther := getElem?_chain isOther
        rw [← equal] at atOther
        exact same ((place_eq_iff chainDistinct atOther).mp isThere)
      rw [List.getElem?_modify_ne _ _ same]
      obtain ⟨node, below, nodeThere, isItem, children⟩ := held.exists_node isOther
      refine ⟨node, below, ?_, isItem, children.congr (sameBelow isOther)⟩
      rw [node_modify, if_neg notC, nodeThere]

/-! ## Additions -/

/-- The loop to the last item of a chain ends at the last item. -/
theorem exists_lastItem
    {store : Store}
    {prev : Option Address}
    {c : Address}
    {layouts : List Layout}
    {items : List CJSON}
    (held : Holds store prev (some c) layouts items)
    {fuel : Nat}
    (large : items.length < fuel) :
    ∃ last, lastItem fuel c store = .ok last ∧ (chain layouts).getLast? = some last := by
  generalize isFirst : some c = first at held
  induction held generalizing c fuel with
  | nil => cases isFirst
  | @cons prev layout layouts node items rest there back below behind belowHypothesis
      behindHypothesis =>
      cases isFirst
      obtain ⟨fuel, rfl⟩ := Nat.exists_eq_add_one.mpr (Nat.zero_lt_of_lt large)
      have enough : rest.length < fuel := Nat.lt_of_succ_lt_succ large
      rw [lastItem, load_of_node there, Outcome.ok_bind]
      cases next : node.next with
      | none =>
          rw [next] at behind
          cases behind
          exact ⟨layout.address, rfl, rfl⟩
      | some next =>
          obtain ⟨last, walked, isLast⟩ := behindHypothesis enough next.symm
          refine ⟨last, walked, ?_⟩
          rw [chain, List.map_cons, List.getLast?_cons, ← chain, isLast]
          rfl

section Added

variable {store : Store} {array newitem : Address} {arrayNode new : Node}
variable {layouts : List Layout} {items : List CJSON}

/-- The two writes behind the last item. -/
theorem exists_suffixObject
    {last : Address}
    {lastNode : Node}
    (lastThere : store.node last = some lastNode)
    (newThere : store.node newitem = some new)
    (apart : last ≠ newitem) :
    ∃ after, suffixObject last newitem store = .ok after ∧
      ∀ address, after.node address =
        if address = newitem then some { new with prev := some last }
        else (store.node address).map fun own =>
          if address = last then { own with next := some newitem } else own := by
  have newStill : (store.modify last ({ · with next := some newitem })).node newitem =
      some new := by
    rw [node_modify, if_neg apart, newThere]
  rw [suffixObject, write_of_node lastThere, Outcome.ok_bind, write_of_node newStill]
  refine ⟨_, rfl, fun address => ?_⟩
  rw [node_modify]
  by_cases isNew : address = newitem
  · rw [if_pos isNew.symm, if_pos isNew, isNew, newStill, Option.map_some]
  · rw [if_neg (Ne.symm isNew), if_neg isNew, node_modify]
    by_cases isLast : address = last
    · simp [isLast]
    · simp [isLast, Ne.symm isLast]

/-- The chain stays linked up to the new item. -/
theorem linked_of_suffixed
    {after : Store}
    {first : Option Address}
    {last : Address}
    (held : Holds store none first layouts items)
    (isLast : (chain layouts).getLast? = some last)
    (newLast : new.next = none)
    (distinct : (newitem :: addressesOf layouts).Nodup)
    (isAfter : ∀ address, after.node address =
      if address = newitem then some { new with prev := some last }
      else (store.node address).map fun own =>
        if address = last then { own with next := some newitem } else own) :
    Linked after.links none first (chain (layouts ++ [⟨newitem, []⟩])) := by
  obtain ⟨newApart, apart⟩ := List.nodup_cons.mp distinct
  have notNew {address : Address} (isItem : address ∈ chain layouts) : address ≠ newitem := by
    rintro rfl
    exact newApart ((chain_sublist layouts).subset isItem)
  have newChain : chain (layouts ++ [⟨newitem, []⟩]) = chain layouts ++ [newitem] :=
    List.map_append
  rw [newChain]
  refine held.linked.concat ((chain_sublist layouts).nodup apart) isLast ?_ ?_
    fun node isNode notLast => ?_
  · rw [links, isAfter, if_pos rfl, Option.map_some, newLast]
  · rw [links, isAfter, if_neg (notNew (List.mem_of_getLast? isLast)), links, Option.map_map,
      Option.map_map]
    simp [Function.comp_def]
  · rw [links, isAfter, if_neg (notNew isNode), links, Option.map_map]
    simp [Function.comp_def, notLast]

/-- A new item is linked behind the last one. -/
theorem suffixObject_of_holds
    {first : Option Address}
    {last : Address}
    (held : Holds store none first layouts items)
    (isLast : (chain layouts).getLast? = some last)
    (newThere : store.node newitem = some new)
    (newFree : new.child = none ∧ new.next = none)
    (distinct : (newitem :: addressesOf layouts).Nodup) :
    ∃ after, suffixObject last newitem store = .ok after ∧
      (∀ address ∉ newitem :: addressesOf layouts,
        after.node address = store.node address) ∧
      Holds after none first (layouts ++ [⟨newitem, []⟩]) (items ++ [new.item []]) := by
  obtain ⟨newApart, apart⟩ := List.nodup_cons.mp distinct
  obtain ⟨newLeaf, newLast⟩ := newFree
  have lastItem : last ∈ chain layouts := List.mem_of_getLast? isLast
  have notNew {address : Address} (isAddress : address ∈ addressesOf layouts) :
      address ≠ newitem := by
    rintro rfl
    exact newApart isAddress
  have ofItem {address : Address} (isItem : address ∈ chain layouts) :
      address ∈ addressesOf layouts := (chain_sublist layouts).subset isItem
  obtain ⟨lastNode, lastThere⟩ := held.exists_of_mem (ofItem lastItem)
  obtain ⟨after, done, isAfter⟩ :=
    exists_suffixObject lastThere newThere (notNew (ofItem lastItem))
  refine ⟨after, done, fun address outside => ?_, holds_of_linked ?_ ?_
    fun place other isOther => ?_⟩
  · have isNew : address ≠ newitem := by
      rintro rfl
      exact outside List.mem_cons_self
    have notLast : address ≠ last := by
      rintro rfl
      exact outside (List.mem_cons_of_mem _ (ofItem lastItem))
    rw [isAfter, if_neg isNew]
    simp [notLast]
  · exact linked_of_suffixed held isLast newLast distinct isAfter
  · rw [List.length_append, List.length_append, held.length_eq]
    rfl
  · by_cases inRange : place < layouts.length
    · rw [List.getElem?_append_left inRange] at isOther
      rw [List.getElem?_append_left (held.length_eq ▸ inRange)]
      have isItem := List.mem_of_getElem? (getElem?_chain isOther)
      refine held.exists_node_after isOther ((isAfter _).trans
        (if_neg (notNew (ofItem isItem)))) (fun own => ?_) fun address isBelow => ?_
      · split <;> exact ⟨rfl, fun below => rfl⟩
      · obtain ⟨isAddress, notItem⟩ := below_chain apart isOther isBelow
        have notLast : address ≠ last := by
          rintro rfl
          exact notItem lastItem
        rw [isAfter, if_neg (notNew isAddress)]
        simp [notLast]
    · have atEnd : place = layouts.length := by
        obtain ⟨bound, -⟩ := List.getElem?_eq_some_iff.mp isOther
        rw [List.length_append, List.length_singleton] at bound
        omega
      subst atEnd
      rw [List.getElem?_concat_length, Option.some.injEq] at isOther
      subst isOther
      refine ⟨_, [], (isAfter newitem).trans (if_pos rfl), ?_, ?_⟩
      · rw [held.length_eq, List.getElem?_concat_length]
        rfl
      · rw [newLeaf]
        exact .nil

/-- An item is added at the end of an array. -/
theorem addItemToArray_of_holds
    (arrayThere : store.node array = some arrayNode)
    (held : Holds store none arrayNode.child layouts items)
    (newThere : store.node newitem = some new)
    (newFree : new.child = none ∧ new.next = none)
    (newFirst : new.prev = none)
    (distinct : (array :: newitem :: addressesOf layouts).Nodup)
    {fuel : Nat}
    (large : items.length < fuel) :
    ∃ after arrayAfter, addItemToArray fuel array newitem store = .ok after ∧
      after.node array = some arrayAfter ∧
      (∀ below, arrayAfter.item below = arrayNode.item below) ∧
      Holds after none arrayAfter.child (layouts ++ [⟨newitem, []⟩])
        (items ++ [new.item []]) := by
  obtain ⟨arrayApart, apart⟩ := List.nodup_cons.mp distinct
  rw [addItemToArray, load_of_node arrayThere, Outcome.ok_bind]
  cases first : arrayNode.child with
  | none =>
      have arrayNew : array ≠ newitem := by
        rintro rfl
        exact arrayApart List.mem_cons_self
      rw [first] at held
      cases held
      refine ⟨_, { arrayNode with child := some newitem }, write_of_node arrayThere _, ?_,
        fun below => rfl, ?_⟩
      · rw [node_modify, if_pos rfl, arrayThere, Option.map_some]
      · have newStill : (store.modify array ({ · with child := some newitem })).node newitem =
            some new := by
          rw [node_modify, if_neg arrayNew, newThere]
        refine @Holds.cons _ _ ⟨newitem, []⟩ _ new _ _ newStill newFirst ?_ ?_
        · rw [newFree.1]
          exact .nil
        · rw [newFree.2]
          exact .nil
  | some c =>
      rw [first] at held
      obtain ⟨last, walked, isLast⟩ := exists_lastItem held large
      obtain ⟨after, done, sameOutside, heldAfter⟩ :=
        suffixObject_of_holds held isLast newThere newFree apart
      refine ⟨after, arrayNode, ?_, ?_, fun below => rfl, ?_⟩
      · simp only [walked, Outcome.ok_bind, done]
      · rw [sameOutside array arrayApart, arrayThere]
      · rw [first]
        exact heldAfter

/-- An item is added at the end of an object, under its name. -/
theorem addItemToObject_of_holds
    (arrayThere : store.node array = some arrayNode)
    (held : Holds store none arrayNode.child layouts items)
    (newThere : store.node newitem = some new)
    (newFree : new.child = none ∧ new.next = none)
    (newFirst : new.prev = none)
    (distinct : (array :: newitem :: addressesOf layouts).Nodup)
    (string : CString)
    {fuel : Nat}
    (large : items.length < fuel) :
    ∃ after arrayAfter, addItemToObject fuel array string newitem store = .ok after ∧
      after.node array = some arrayAfter ∧
      (∀ below, arrayAfter.item below = arrayNode.item below) ∧
      Holds after none arrayAfter.child (layouts ++ [⟨newitem, []⟩])
        (items ++ [{ new.item [] with string := some string }]) := by
  rw [addItemToObject, write_of_node newThere, Outcome.ok_bind]
  obtain ⟨arrayApart, apart⟩ := List.nodup_cons.mp distinct
  obtain ⟨newApart, -⟩ := List.nodup_cons.mp apart
  have arrayNew : newitem ≠ array := by
    rintro rfl
    exact arrayApart List.mem_cons_self
  have arrayStill : (store.modify newitem ({ · with string := some string })).node array =
      some arrayNode := by
    rw [node_modify, if_neg arrayNew, arrayThere]
  have newStill : (store.modify newitem ({ · with string := some string })).node newitem =
      some { new with string := some string } := by
    rw [node_modify, if_pos rfl, newThere, Option.map_some]
  refine addItemToArray_of_holds arrayStill (held.congr fun address isAddress => ?_)
    newStill newFree newFirst distinct large
  have notNew : newitem ≠ address := by
    rintro rfl
    exact newApart isAddress
  rw [node_modify, if_neg notNew]

end Added

end Store
end ProtobufSandbox
