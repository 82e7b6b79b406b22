import ProtobufSandbox.Json.GetAfterSet
import ProtobufSandbox.Json.StoreReplacement

/-!
# The setter of integers on a store

`setAttributeValue_Int` on an object that a store holds. Where the item that it writes
at the end has not been deleted, it does to the store what the setter on trees does to
the tree.
-/

namespace ProtobufSandbox
namespace Store

open Layout LinkedChain CJSON

section Object

variable {store : Store} {JSONObj : Address} {objectNode : Node}
variable {layouts : List Layout} {items : List CJSON}

/-- A new item is created next to an object that is held. -/
theorem create_of_holds
    (there : store.node JSONObj = some objectNode)
    (held : Holds store none objectNode.child layouts items)
    (distinct : (JSONObj :: addressesOf layouts).Nodup)
    (new : Node) :
    (store.create new).node JSONObj = some objectNode ∧
      Holds (store.create new) none objectNode.child layouts items ∧
      (store.create new).node store.unused = some new ∧
      (JSONObj :: store.unused :: addressesOf layouts).Nodup := by
  have used {address : Address} {node : Node} (present : store.node address = some node) :
      store.unused ≠ address := by
    rintro rfl
    rw [node_unused] at present
    cases present
  have usedBelow {address : Address} (isAddress : address ∈ addressesOf layouts) :
      store.unused ≠ address := by
    obtain ⟨node, present⟩ := held.exists_of_mem isAddress
    exact used present
  obtain ⟨apart, distinct⟩ := List.nodup_cons.mp distinct
  refine ⟨?_, held.congr fun address isAddress => ?_, ?_, ?_⟩
  · rw [node_create, if_neg (used there), there]
  · rw [node_create, if_neg (usedBelow isAddress)]
  · rw [node_create, if_pos rfl]
  · refine List.nodup_cons.mpr ⟨?_, List.nodup_cons.mpr ⟨?_, distinct⟩⟩
    · rw [List.mem_cons, not_or]
      exact ⟨Ne.symm (used there), apart⟩
    · exact fun isAddress => usedBelow isAddress rfl

section Call

variable (there : store.node JSONObj = some objectNode)
variable (object : objectNode.type = .object)
variable (held : Holds store none objectNode.child layouts items)
variable (distinct : (JSONObj :: addressesOf layouts).Nodup)
variable (named : ∀ item ∈ items, item.string.isSome)
variable (key : Bytes) (valueint : Int32)
variable {fuel : Nat} (large : (addressesOf layouts).length < fuel)

include there object held distinct named large

/-- Without a number of the name an item is added, and nothing is written later. -/
theorem replaceSubitem_of_none
    (searched : findAttribute key isNumber items = .ok none) :
    ∃ after objectAfter,
      replaceSubitem fuel JSONObj key valueint store = .ok (none, after) ∧
      after.node JSONObj = some objectAfter ∧
      (∀ below, objectAfter.item below = objectNode.item below) ∧
      Holds after none objectAfter.child (layouts ++ [⟨store.unused, []⟩])
        (items ++
          [{ CJSON.createNumber valueint.toInt with
            string := some (CString.ofBuffer key) }]) := by
  have enough : items.length < fuel :=
    Nat.lt_of_le_of_lt (held.length_eq ▸ length_le_addressesOf layouts) large
  obtain ⟨found, known, walked⟩ := findSubitem_of_holds held named key enough
  cases known.symm.trans searched
  obtain ⟨thereStill, heldStill, newThere, apart⟩ :=
    create_of_holds there held distinct (Node.createNumber valueint.toInt)
  obtain ⟨after, objectAfter, added, objectThere, sameItem, heldAfter⟩ :=
    addItemToObject_of_holds thereStill heldStill newThere ⟨rfl, rfl⟩ rfl apart
      (CString.ofBuffer key) enough
  refine ⟨after, objectAfter, ?_, objectThere, sameItem, heldAfter⟩
  rw [replaceSubitem, load_of_node there, Outcome.ok_bind]
  simp only [firstSubitem, object, walked, Outcome.ok_bind, Option.bind_none, added]
  rfl

/-- The number that the loop finds stays the cursor of the call, and the first member
of its name, ignoring case, is replaced. -/
theorem replaceSubitem_of_some
    {index : Nat}
    {member : CJSON}
    (searched : findAttribute key isNumber items = .ok (some (index, member))) :
    ∃ own which layout after objectAfter,
      layouts[index]? = some own ∧
      items.findIdx? (fun item => item.namedLike (CString.ofBuffer key)) = some which ∧
      layouts[which]? = some layout ∧
      replaceSubitem fuel JSONObj key valueint store = .ok (some own.address, after) ∧
      after.node JSONObj = some objectAfter ∧
      (∀ below, objectAfter.item below = objectNode.item below) ∧
      Holds after none objectAfter.child (layouts.set which ⟨store.unused, []⟩)
        (items.set which
          { CJSON.createNumber valueint.toInt with string := some (CString.ofBuffer key) }) ∧
      ∀ address ∈ layout.addresses, after.node address = none := by
  have enough : items.length < fuel :=
    Nat.lt_of_le_of_lt (held.length_eq ▸ length_le_addressesOf layouts) large
  obtain ⟨isMember, name, -⟩ := of_findAttribute_eq_some searched
  obtain ⟨string, present, isKey⟩ := Option.map_eq_some_iff.mp name
  have keyString : CString.ofBuffer key = string := by
    rw [← isKey, CString.ofBuffer_val]
  obtain ⟨inRange, -⟩ := List.getElem?_eq_some_iff.mp isMember
  obtain ⟨own, isOwn⟩ : ∃ own, layouts[index]? = some own :=
    ⟨_, List.getElem?_eq_getElem (held.length_eq.symm ▸ inRange)⟩
  obtain ⟨node, below, nodeThere, isItem, -⟩ := held.exists_node isOwn
  have nodeString : node.string = some string := by
    rw [← present, ← Option.some.inj (isItem.symm.trans isMember)]
    rfl
  obtain ⟨which, found⟩ : ∃ which,
      items.findIdx? (fun item => item.namedLike (CString.ofBuffer key)) = some which :=
    @exists_indexLike_of_findAttribute (objectNode.item items) member key isNumber index
      searched
  obtain ⟨whichRange, -, -⟩ := List.findIdx?_eq_some_iff_getElem.mp found
  obtain ⟨layout, isLayout⟩ : ∃ layout, layouts[which]? = some layout :=
    ⟨_, List.getElem?_eq_getElem (held.length_eq.symm ▸ whichRange)⟩
  obtain ⟨thereStill, heldStill, newThere, apart⟩ :=
    create_of_holds there held distinct (Node.createNumber valueint.toInt)
  obtain ⟨after, objectAfter, replaced, objectThere, sameItem, heldAfter, removed⟩ :=
    replaceItemInObject_of_holds thereStill heldStill newThere rfl apart found isLayout large
  refine ⟨own, which, layout, after, objectAfter, isOwn, found, isLayout, ?_, objectThere,
    sameItem, heldAfter, removed⟩
  obtain ⟨result, known, walked⟩ := findSubitem_of_holds held named key enough
  cases known.symm.trans searched
  rw [keyString] at replaced
  rw [replaceSubitem, load_of_node there, Outcome.ok_bind]
  simp only [firstSubitem, object, walked, Outcome.ok_bind, Option.bind_some,
    getElem?_chain isOwn,
    load_of_node nodeThere, nodeString, replaced]
  rfl

/-- Where the number that the loop finds is not the first member of its name, ignoring
case, the call does to the store what the setter on trees does to the tree. -/
theorem setAttributeValueInt_refines
    (live : ∀ index member, findAttribute key isNumber items = .ok (some (index, member)) →
      items.findIdx? (fun item => item.namedLike (CString.ofBuffer key)) ≠ some index)
    (next : List CJSON) :
    ∃ last objectAfter layoutsAfter itemsAfter,
      setAttributeValueInt fuel JSONObj key valueint store = .ok (true, last) ∧
      last.node JSONObj = some objectAfter ∧
      Holds last none objectAfter.child layoutsAfter itemsAfter ∧
      CJSON.setAttributeValueInt (objectNode.item items :: next) key valueint =
        .ok (objectAfter.item itemsAfter :: next) := by
  let change : Node → Node := ({ · with valueint := valueint })
  let write : CJSON → CJSON := ({ · with valueint := valueint })
  obtain ⟨found, searched⟩ := @exists_findAttribute key isNumber items named
  cases found with
  | none =>
      obtain ⟨after, objectAfter, replaced, objectThere, sameItem, heldAfter⟩ :=
        replaceSubitem_of_none there object held distinct named key valueint large searched
      refine ⟨after, objectAfter, _, _, ?_, objectThere, heldAfter, ?_⟩
      · rw [setAttributeValueInt, replaced]
        rfl
      · rw [sameItem]
        exact @replaceAttribute_of_none (objectNode.item items) key isNumber object rfl next
          write _ searched
  | some pair =>
      obtain ⟨index, member⟩ := pair
      obtain ⟨own, which, layout, after, objectAfter, isOwn, isFirst, isLayout, replaced,
        objectThere, sameItem, heldAfter, -⟩ :=
        replaceSubitem_of_some there object held distinct named key valueint large searched
      have notSame : which ≠ index := by
        rintro rfl
        exact live which member searched isFirst
      have stillOwn : (layouts.set which ⟨store.unused, []⟩)[index]? = some own := by
        rw [List.getElem?_set_ne notSame, isOwn]
      obtain ⟨node, below, nodeThere, -, -⟩ := heldAfter.exists_node stillOwn
      obtain ⟨-, -, -, apart⟩ := create_of_holds there held distinct Node.newItem
      have heldLast := @Holds.modify _ _ _ _ _ _ _ change write heldAfter
        (nodup_addressesOf_set (List.nodup_cons.mp apart).2 isLayout) stillOwn
        (fun own => ⟨rfl, rfl, rfl⟩) (fun own below => rfl)
      have notObject : own.address ≠ JSONObj := by
        intro same
        refine (List.nodup_cons.mp distinct).1 ((chain_sublist layouts).subset ?_)
        exact same ▸ List.mem_of_getElem? (getElem?_chain isOwn)
      refine ⟨_, objectAfter, _, _, ?_, ?_, heldLast, ?_⟩
      · rw [setAttributeValueInt, replaced]
        simp only [Outcome.ok_bind, write_of_node nodeThere]
        rfl
      · rw [node_modify, if_neg notObject, objectThere]
      · have onTree := @replaceAttribute_of_some (objectNode.item items) key isNumber object
          rfl next write (CJSON.createNumber valueint.toInt) index which member searched isFirst
        rw [if_neg notSame] at onTree
        rw [sameItem]
        exact onTree

end Call

end Object

end Store
end ProtobufSandbox
