import ProtobufSandbox.Json.StoreSetter

/-!
# Writes to items that are still there

`setAttributeValue_Int` writes the item that its loop found after it has called
`cJSON_ReplaceItemInObject`, which ignores case and deletes the first member of that
name. The write is to an item that is still in the object exactly if a member in
front of the found one was deleted.
-/

namespace ProtobufSandbox
namespace Store

open Layout LinkedChain CJSON

/-- A node is linked in the child list of an object. -/
def InChildList (store : Store) (object node : Address) : Prop :=
  ∃ objectNode chain, store.node object = some objectNode ∧
    Linked store.links none objectNode.child chain ∧ node ∈ chain

/-- A call of `setAttributeValue_Int` returns, and the node that it writes after its
call of `cJSON_ReplaceItemInObject` is in the child list of the object then. -/
def WritesLive
    (store : Store)
    (JSONObj : Address)
    (key : Bytes)
    (valueint : Int32) : Prop :=
  ∃ enough, ∀ fuel, enough ≤ fuel → ∃ found after last,
    replaceSubitem fuel JSONObj key valueint store = .ok (found, after) ∧
    (∀ subitem ∈ found, after.InChildList JSONObj subitem) ∧
    setAttributeValueInt fuel JSONObj key valueint store = .ok (true, last)

/-- In front of the first number with exactly the key there is a member with that name,
ignoring case. -/
def FollowsLike (items : List CJSON) (key : Bytes) : Prop :=
  ∀ before member behind, items = before ++ member :: behind →
    IsAttribute key isNumber member →
      (∀ other ∈ before, ¬ IsAttribute key isNumber other) →
        ∃ other ∈ before, other.namedLike (CString.ofBuffer key) = true

/-- A node in a child list is in memory. -/
theorem InChildList.exists_node
    {store : Store}
    {object address : Address}
    (listed : store.InChildList object address) :
    ∃ node, store.node address = some node := by
  obtain ⟨objectNode, chain, -, linked, isItem⟩ := listed
  obtain ⟨place, there⟩ := List.mem_iff_getElem?.mp isItem
  obtain ⟨node, present, -⟩ := Option.map_eq_some_iff.mp (linked.linked there)
  exact ⟨node, present⟩

/-- The first member of the name stands in front of an attribute exactly if some member
in front of the attribute has the name, ignoring case. -/
theorem findIdx_lt_iff
    {before : List CJSON}
    {member : CJSON}
    {behind : List CJSON}
    {string : CString}
    {which : Nat}
    (found : (before ++ member :: behind).findIdx? (fun item => item.namedLike string) =
      some which)
    (like : member.namedLike string = true) :
    (which ≤ before.length) ∧
      (which < before.length ↔ ∃ other ∈ before, other.namedLike string = true) := by
  rw [List.findIdx?_append] at found
  cases front : before.findIdx? fun item => item.namedLike string with
  | none =>
      rw [front, List.findIdx?_cons, if_pos like] at found
      obtain rfl : before.length = which := by simpa using found
      rw [List.findIdx?_eq_none_iff] at front
      refine ⟨Nat.le_refl _, iff_of_false (Nat.lt_irrefl _) ?_⟩
      rintro ⟨other, isBefore, otherLike⟩
      rw [front other isBefore] at otherLike
      cases otherLike
  | some place =>
      rw [front, Option.some_or, Option.some.injEq] at found
      subst found
      obtain ⟨inRange, otherLike, -⟩ := List.findIdx?_eq_some_iff_getElem.mp front
      exact ⟨Nat.le_of_lt inRange,
        iff_of_true inRange ⟨_, List.getElem_mem inRange, otherLike⟩⟩

/-- The condition, at the first number with the key. -/
theorem followsLike_iff
    {before : List CJSON}
    {member : CJSON}
    {behind : List CJSON}
    {key : Bytes}
    (isAttribute : IsAttribute key isNumber member)
    (noneBefore : ∀ other ∈ before, ¬ IsAttribute key isNumber other) :
    FollowsLike (before ++ member :: behind) key ↔
      ∃ other ∈ before, other.namedLike (CString.ofBuffer key) = true := by
  constructor
  · exact fun follows => follows before member behind rfl isAttribute noneBefore
  · intro like front found rest split isFound noneFront
    have same : front = before := by
      rcases List.append_eq_append_iff.mp split with ⟨between, rfl, tail⟩ |
        ⟨between, rfl, tail⟩
      · cases between with
        | nil => exact List.append_nil _
        | cons other between =>
            obtain ⟨rfl, -⟩ := List.cons.inj tail
            exact absurd isAttribute (noneFront member (by simp))
      · cases between with
        | nil => exact (List.append_nil _).symm
        | cons other between =>
            obtain ⟨rfl, -⟩ := List.cons.inj tail
            exact absurd isFound (noneBefore found (by simp))
    exact same ▸ like

section Object

variable {store : Store} {JSONObj : Address} {objectNode : Node}
variable {layouts : List Layout} {items : List CJSON}

/-- The cursor is still in the child list exactly if a member in front of it has been
replaced. -/
theorem inChildList_iff
    (there : store.node JSONObj = some objectNode)
    (object : objectNode.type = .object)
    (held : Holds store none objectNode.child layouts items)
    (distinct : (JSONObj :: addressesOf layouts).Nodup)
    (named : ∀ item ∈ items, item.string.isSome)
    (key : Bytes)
    (valueint : Int32)
    {fuel : Nat}
    (large : (addressesOf layouts).length < fuel)
    {before : List CJSON}
    {member : CJSON}
    {behind : List CJSON}
    (split : items = before ++ member :: behind)
    (isAttribute : IsAttribute key isNumber member)
    (noneBefore : ∀ other ∈ before, ¬ IsAttribute key isNumber other) :
    ∃ subitem after,
      replaceSubitem fuel JSONObj key valueint store = .ok (some subitem, after) ∧
      (after.InChildList JSONObj subitem ↔
        ∃ other ∈ before, other.namedLike (CString.ofBuffer key) = true) := by
  subst split
  have searched := findAttribute_of_first
    (fun item isBefore => named item (List.mem_append_left _ isBefore)) noneBefore
    isAttribute behind
  obtain ⟨own, which, layout, after, objectAfter, isOwn, found, isLayout, replaced,
    objectThere, -, heldAfter, removed⟩ := replaceSubitem_of_some there object held distinct named
      key valueint large searched
  have like : member.namedLike (CString.ofBuffer key) = true := by
    apply namedLike_of_name
    rw [ofBuffer_val_of_name isAttribute.1, isAttribute.1]
  obtain ⟨inFront, isEarlier⟩ := findIdx_lt_iff found like
  refine ⟨own.address, after, replaced, ?_⟩
  rw [← isEarlier]
  constructor
  · intro listed
    refine Nat.lt_of_le_of_ne inFront fun same => ?_
    obtain rfl : layout = own := by
      rw [← same, isLayout] at isOwn
      exact Option.some.inj isOwn
    obtain ⟨node, present⟩ := listed.exists_node
    rw [removed _ layout.mem_addresses_self] at present
    cases present
  · intro earlier
    refine ⟨objectAfter, _, objectThere, heldAfter.linked, ?_⟩
    have other : which ≠ before.length := Nat.ne_of_lt earlier
    apply List.mem_of_getElem?
    rw [chain, List.map_set, List.getElem?_set_ne other]
    exact getElem?_chain isOwn

/-- `setAttributeValue_Int` writes only an item that is still in the object, exactly if
no number has the key, or a member in front of the first such number has that name,
ignoring case. -/
theorem writesLive_iff
    (there : store.node JSONObj = some objectNode)
    (object : objectNode.type = .object)
    (held : Holds store none objectNode.child layouts items)
    (distinct : (JSONObj :: addressesOf layouts).Nodup)
    (named : ∀ item ∈ items, item.string.isSome)
    (key : Bytes)
    (valueint : Int32) :
    WritesLive store JSONObj key valueint ↔ FollowsLike items key := by
  cases first : items.find? fun item => decide (IsAttribute key isNumber item) with
  | none =>
      have none : ∀ item ∈ items, ¬ IsAttribute key isNumber item := by
        simpa using first
      have searched := findAttribute_of_none named none
      refine iff_of_true ⟨(addressesOf layouts).length + 1, fun fuel enough => ?_⟩ ?_
      · obtain ⟨after, -, replaced, -⟩ := replaceSubitem_of_none there object held distinct named
          key valueint enough searched
        refine ⟨_, after, after, replaced, by simp, ?_⟩
        rw [setAttributeValueInt, replaced]
        rfl
      · rintro before member behind rfl isAttribute -
        exact absurd isAttribute (none member (by simp))
  | some member =>
      obtain ⟨before, behind, rfl, isAttribute, noneBefore⟩ := KeyedList.exists_first first
      rw [followsLike_iff isAttribute noneBefore]
      constructor
      · rintro ⟨enough, returns⟩
        obtain ⟨found, after, last, replaced, listed, -⟩ :=
          returns (max enough ((addressesOf layouts).length + 1)) (Nat.le_max_left _ _)
        obtain ⟨subitem, other, known, isListed⟩ := inChildList_iff there object held distinct
          named key valueint (Nat.le_max_right _ _) rfl isAttribute noneBefore
        cases known.symm.trans replaced
        exact isListed.mp (listed subitem rfl)
      · intro like
        refine ⟨(addressesOf layouts).length + 1, fun fuel enough => ?_⟩
        obtain ⟨subitem, after, replaced, isListed⟩ := inChildList_iff there object held
          distinct named key valueint enough rfl isAttribute noneBefore
        have listed := isListed.mpr like
        obtain ⟨node, present⟩ := listed.exists_node
        refine ⟨some subitem, after, after.modify subitem ({ · with valueint := valueint }),
          replaced, fun cursor isCursor => ?_, ?_⟩
        · cases isCursor
          exact listed
        · rw [setAttributeValueInt, replaced]
          simp only [Outcome.ok_bind, write_of_node present]
          rfl

end Object

/-- A number under a name. -/
def namedNumber (string : CString) (num : Rat) : Node :=
  { Node.createNumber num with string := some string }

/-- The object `{"A":1,"a":2}` in memory. -/
def storeOfTwo : Store :=
  ⟨[some { Node.newItem with type := .object, child := some 1 },
    some { namedNumber (keyOf ['A']) 1 with next := some 2 },
    some { namedNumber (keyOf ['a']) 2 with prev := some 1 }], []⟩

theorem holds_storeOfTwo :
    Holds storeOfTwo none (some 1) [⟨1, []⟩, ⟨2, []⟩]
      [(namedNumber (keyOf ['A']) 1).item [], (namedNumber (keyOf ['a']) 2).item []] :=
  @Holds.cons _ _ ⟨1, []⟩ _ { namedNumber (keyOf ['A']) 1 with next := some 2 } _ _
    rfl rfl .nil
    (@Holds.cons _ _ ⟨2, []⟩ _ { namedNumber (keyOf ['a']) 2 with prev := some 1 } _ _
      rfl rfl .nil .nil)

/-- The condition on an object with two spellings of the key. -/
theorem writesLive_storeOfTwo :
    WritesLive storeOfTwo 0 (ascii ['a']) 5 ↔
      FollowsLike
        [(namedNumber (keyOf ['A']) 1).item [], (namedNumber (keyOf ['a']) 2).item []]
        (ascii ['a']) :=
  @writesLive_iff storeOfTwo 0 { Node.newItem with type := .object, child := some 1 } _ _
    rfl rfl holds_storeOfTwo (by decide) (by simp [namedNumber, Node.item]) (ascii ['a']) 5

/-- The object `{"a":1}` in memory. -/
def storeOfOne : Store :=
  ⟨[some { Node.newItem with type := .object, child := some 1 },
    some (namedNumber (keyOf ['a']) 1)], []⟩

theorem holds_storeOfOne :
    Holds storeOfOne none (some 1) [⟨1, []⟩] [(namedNumber (keyOf ['a']) 1).item []] :=
  @Holds.cons _ _ ⟨1, []⟩ _ (namedNumber (keyOf ['a']) 1) _ _ rfl rfl .nil .nil

/-- The only number of the name is deleted, and then written. -/
theorem not_writesLive_storeOfOne :
    Holds storeOfOne none (some 1) [⟨1, []⟩] [(namedNumber (keyOf ['a']) 1).item []] ∧
      (∀ fuel, setAttributeValueInt (fuel + 4) 0 (ascii ['a']) 5 storeOfOne =
        .error .removedNode) ∧
      ¬ WritesLive storeOfOne 0 (ascii ['a']) 5 := by
  have fails (fuel : Nat) :
      setAttributeValueInt (fuel + 4) 0 (ascii ['a']) 5 storeOfOne =
        .error .removedNode := rfl
  refine ⟨holds_storeOfOne, fails, ?_⟩
  rintro ⟨enough, returns⟩
  obtain ⟨_, _, _, -, -, returned⟩ := returns (enough + 4) (Nat.le_add_right _ _)
  rw [fails] at returned
  cases returned

end Store
end ProtobufSandbox
