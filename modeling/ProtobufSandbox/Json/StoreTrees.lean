import ProtobufSandbox.Json.Mutation
import ProtobufSandbox.Json.Store

/-!
# Trees in memory

A store holds a tree at the addresses of a layout. The loops along its links then
find what the lists of the tree say, and deleting a chain removes exactly its
addresses.
-/

namespace ProtobufSandbox

/-- The addresses of a tree. -/
structure Layout where
  address : Address
  child : List Layout

namespace Layout

mutual

/-- All addresses of a tree. -/
def addresses : Layout → List Address
  | ⟨address, child⟩ => address :: addressesOf child

/-- All addresses of the trees in a chain. -/
def addressesOf : List Layout → List Address
  | [] => []
  | layout :: layouts => layout.addresses ++ addressesOf layouts

end

theorem addresses_eq (layout : Layout) :
    layout.addresses = layout.address :: addressesOf layout.child := by
  cases layout
  rw [addresses]

theorem mem_addresses_self (layout : Layout) : layout.address ∈ layout.addresses := by
  rw [addresses_eq]
  exact List.mem_cons_self

theorem addressesOf_append (first second : List Layout) :
    addressesOf (first ++ second) = addressesOf first ++ addressesOf second := by
  induction first with
  | nil => rfl
  | cons layout first inductionHypothesis =>
      rw [List.cons_append, addressesOf, addressesOf, inductionHypothesis,
        List.append_assoc]

/-- The items of a chain, by their addresses. -/
def chain (layouts : List Layout) : List Address :=
  layouts.map address

theorem getElem?_chain
    {layouts : List Layout}
    {place : Nat}
    {layout : Layout}
    (there : layouts[place]? = some layout) :
    (chain layouts)[place]? = some layout.address := by
  rw [chain, List.getElem?_map, there, Option.map_some]

/-- The items of a chain are among its addresses. -/
theorem chain_sublist (layouts : List Layout) :
    (chain layouts).Sublist (addressesOf layouts) := by
  induction layouts with
  | nil => exact .refl _
  | cons layout layouts inductionHypothesis =>
      rw [addressesOf, addresses_eq]
      exact .cons_cons _ (inductionHypothesis.trans (List.sublist_append_right _ _))

theorem length_le_addressesOf (layouts : List Layout) :
    layouts.length ≤ (addressesOf layouts).length := by
  have sublist := (chain_sublist layouts).length_le
  rwa [chain, List.length_map] at sublist

/-- Where addresses are distinct, an item of a chain is in no other tree of it. -/
theorem not_mem_addresses_of_mem_chain
    {layouts : List Layout}
    {place : Nat}
    {layout : Layout}
    {address : Address}
    (distinct : (addressesOf layouts).Nodup)
    (there : layouts[place]? = some layout)
    (isItem : address ∈ chain layouts)
    (other : address ≠ layout.address) :
    address ∉ layout.addresses := by
  obtain ⟨before, behind, split, -⟩ := KeyedList.exists_split there layout
  rw [split, addressesOf_append, addressesOf] at distinct
  obtain ⟨-, distinct, apartBefore⟩ := List.nodup_append'.mp distinct
  obtain ⟨-, -, apartBehind⟩ := List.nodup_append'.mp distinct
  intro isBelow
  rw [split, chain, List.map_append, List.map_cons, List.mem_append, List.mem_cons] at isItem
  rcases isItem with isBefore | isHere | isBehind
  · exact apartBefore ((chain_sublist before).subset isBefore)
      (List.mem_append_left _ isBelow)
  · exact other isHere
  · exact apartBehind isBelow ((chain_sublist behind).subset isBehind)

/-- The addresses of a tree of a chain are addresses of the chain. -/
theorem addresses_sublist
    {layouts : List Layout}
    {layout : Layout}
    (isLayout : layout ∈ layouts) :
    layout.addresses.Sublist (addressesOf layouts) := by
  obtain ⟨before, behind, rfl⟩ := List.append_of_mem isLayout
  rw [addressesOf_append, addressesOf]
  exact (List.sublist_append_left _ _).trans (List.sublist_append_right _ _)

/-- The addresses below an item of a chain are in the chain's trees, but none of its
items. -/
theorem below_chain
    {layouts : List Layout}
    {place : Nat}
    {layout : Layout}
    {address : Address}
    (distinct : (addressesOf layouts).Nodup)
    (there : layouts[place]? = some layout)
    (isBelow : address ∈ addressesOf layout.child) :
    address ∈ addressesOf layouts ∧ address ∉ chain layouts := by
  have sublist := addresses_sublist (List.mem_of_getElem? there)
  have isOwn : address ∈ layout.addresses := by
    rw [addresses_eq]
    exact List.mem_cons_of_mem _ isBelow
  refine ⟨sublist.subset isOwn, fun isItem => ?_⟩
  by_cases same : address = layout.address
  · have ownDistinct := sublist.nodup distinct
    rw [addresses_eq, List.nodup_cons] at ownDistinct
    exact ownDistinct.1 (same ▸ isBelow)
  · exact not_mem_addresses_of_mem_chain distinct there isItem same isOwn

/-- A chain with a new item at a place has nothing of the item that stood there. -/
theorem not_mem_addresses_of_set
    {layouts : List Layout}
    {place : Nat}
    {layout : Layout}
    {newitem address : Address}
    (distinct : (newitem :: addressesOf layouts).Nodup)
    (there : layouts[place]? = some layout)
    (isAddress : address ∈ addressesOf (layouts.set place ⟨newitem, []⟩)) :
    address ∉ layout.addresses := by
  obtain ⟨newApart, distinct⟩ := List.nodup_cons.mp distinct
  obtain ⟨before, behind, split, written, -⟩ := KeyedList.exists_split there ⟨newitem, []⟩
  rw [written, addressesOf_append, addressesOf, addresses_eq, addressesOf] at isAddress
  rw [split, addressesOf_append, addressesOf] at distinct newApart
  obtain ⟨-, distinct, apartBefore⟩ := List.nodup_append'.mp distinct
  obtain ⟨-, -, apartBehind⟩ := List.nodup_append'.mp distinct
  intro isOwn
  rw [List.singleton_append, List.mem_append, List.mem_cons] at isAddress
  rcases isAddress with isBefore | rfl | isBehind
  · exact apartBefore isBefore (List.mem_append_left _ isOwn)
  · exact newApart (List.mem_append_right _ (List.mem_append_left _ isOwn))
  · exact apartBehind isOwn isBehind

/-- The addresses stay distinct when a new item takes the place of another one. -/
theorem nodup_addressesOf_set
    {layouts : List Layout}
    {place : Nat}
    {layout : Layout}
    {newitem : Address}
    (distinct : (newitem :: addressesOf layouts).Nodup)
    (there : layouts[place]? = some layout) :
    (addressesOf (layouts.set place ⟨newitem, []⟩)).Nodup := by
  obtain ⟨before, behind, split, written, -⟩ := KeyedList.exists_split there ⟨newitem, []⟩
  rw [split, addressesOf_append, addressesOf] at distinct
  rw [written, addressesOf_append, addressesOf, addresses_eq, addressesOf,
    List.singleton_append, List.nodup_middle]
  have smaller : (newitem :: (addressesOf before ++ addressesOf behind)).Sublist
      (newitem :: (addressesOf before ++ (layout.addresses ++ addressesOf behind))) :=
    .cons_cons _ (.append (.refl _) (List.sublist_append_right _ _))
  exact smaller.nodup distinct

end Layout

/-- What a node says, with its children. -/
def Node.item (node : Node) (child : List CJSON) : CJSON where
  child := child
  type := node.type
  valuestring := node.valuestring
  valueint := node.valueint
  valuedouble := node.valuedouble
  string := node.string

namespace Store

open Layout LinkedChain

/-- A store holds the items of a chain, linked one behind the other and each with the
chain of its children. -/
inductive Holds (store : Store) :
    Option Address → Option Address → List Layout → List CJSON → Prop
  | nil {prev : Option Address} : Holds store prev none [] []
  | cons
      {prev : Option Address}
      {layout : Layout}
      {layouts : List Layout}
      {node : Node}
      {items rest : List CJSON}
      (there : store.node layout.address = some node)
      (back : node.prev = prev)
      (below : Holds store none node.child layout.child items)
      (behind : Holds store (some layout.address) node.next layouts rest) :
      Holds store prev (some layout.address) (layout :: layouts)
        (node.item items :: rest)

section Held

variable {store : Store} {prev first : Option Address}
variable {layouts : List Layout} {items : List CJSON}

/-- A chain is held where all its nodes are as before. -/
theorem Holds.congr
    {after : Store}
    (held : Holds store prev first layouts items)
    (same : ∀ address ∈ addressesOf layouts, after.node address = store.node address) :
    Holds after prev first layouts items := by
  induction held with
  | nil => exact .nil
  | @cons prev layout layouts node items rest there back below behind belowHypothesis
      behindHypothesis =>
      simp only [addressesOf, addresses_eq, List.mem_append, List.mem_cons] at same
      refine .cons ?_ back (belowHypothesis fun address isBelow => ?_)
        (behindHypothesis fun address isBehind => ?_)
      · rw [same _ (.inl (.inl rfl)), there]
      · exact same address (.inl (.inr isBelow))
      · exact same address (.inr isBehind)

theorem Holds.linked
    (held : Holds store prev first layouts items) :
    Linked store.links prev first (chain layouts) := by
  induction held with
  | nil => exact .nil _ _
  | @cons prev layout layouts node items rest there back below behind belowHypothesis
      behindHypothesis =>
      refine .cons ?_ behindHypothesis
      rw [links, there, Option.map_some, back]

theorem Holds.length_eq
    (held : Holds store prev first layouts items) :
    layouts.length = items.length := by
  induction held with
  | nil => rfl
  | cons _ _ _ _ _ behindHypothesis =>
      rw [List.length_cons, List.length_cons, behindHypothesis]

/-- Every address of a chain that is held is in memory. -/
theorem Holds.exists_of_mem
    (held : Holds store prev first layouts items)
    {address : Address}
    (isAddress : address ∈ addressesOf layouts) :
    ∃ node, store.node address = some node := by
  induction held with
  | nil => cases isAddress
  | @cons prev layout layouts node items rest there back below behind belowHypothesis
      behindHypothesis =>
      rw [addressesOf, addresses_eq, List.cons_append, List.mem_cons, List.mem_append]
        at isAddress
      rcases isAddress with rfl | isBelow | isBehind
      · exact ⟨node, there⟩
      · exact belowHypothesis isBelow
      · exact behindHypothesis isBehind

/-- The item at a place, with its children. -/
theorem Holds.exists_node
    (held : Holds store prev first layouts items)
    {place : Nat}
    {layout : Layout}
    (there : layouts[place]? = some layout) :
    ∃ node below, store.node layout.address = some node ∧
      items[place]? = some (node.item below) ∧
      Holds store none node.child layout.child below := by
  induction held generalizing place with
  | nil => cases there
  | @cons prev other layouts node below rest present back children behind
      belowHypothesis behindHypothesis =>
      cases place with
      | zero =>
          cases there
          exact ⟨node, below, present, rfl, children⟩
      | succ place => exact behindHypothesis there

/-- A chain is held if its items are linked, and each is there with its children. -/
theorem holds_of_linked
    {store : Store}
    {prev first : Option Address}
    {layouts : List Layout}
    {items : List CJSON}
    (linked : Linked store.links prev first (chain layouts))
    (length : layouts.length = items.length)
    (trees : ∀ (place : Nat) (layout : Layout), layouts[place]? = some layout →
      ∃ node below, store.node layout.address = some node ∧
        items[place]? = some (node.item below) ∧
        Holds store none node.child layout.child below) :
    Holds store prev first layouts items := by
  induction layouts generalizing prev first items with
  | nil =>
      obtain rfl : items = [] := List.length_eq_zero_iff.mp length.symm
      obtain rfl : first = none := linked.first
      exact .nil
  | cons layout layouts inductionHypothesis =>
      obtain ⟨node, below, there, isItem, children⟩ := trees 0 layout rfl
      cases items with
      | nil => cases isItem
      | cons item items =>
          obtain rfl : item = node.item below := Option.some.inj isItem
          obtain ⟨rfl, itsLinks, behind⟩ := Linked.uncons linked
          rw [links, there, Option.map_some, Option.some.injEq, Links.mk.injEq] at itsLinks
          obtain ⟨back, next⟩ := itsLinks
          refine .cons there back children ?_
          rw [next]
          exact inductionHypothesis behind (Nat.succ.inj length)
            fun place layout isLayout => trees (place + 1) layout isLayout

/-- An item is there as before if only its links have changed, and nothing below it. -/
theorem Holds.exists_node_after
    {store after : Store}
    {prev first : Option Address}
    {layouts : List Layout}
    {items : List CJSON}
    {place : Nat}
    {layout : Layout}
    {change : Node → Node}
    (held : Holds store prev first layouts items)
    (there : layouts[place]? = some layout)
    (changed : after.node layout.address = (store.node layout.address).map change)
    (onlyLinks : ∀ own, (change own).child = own.child ∧
      ∀ below, (change own).item below = own.item below)
    (sameBelow : ∀ address ∈ addressesOf layout.child,
      after.node address = store.node address) :
    ∃ node below, after.node layout.address = some node ∧
      items[place]? = some (node.item below) ∧
      Holds after none node.child layout.child below := by
  obtain ⟨node, below, nodeThere, isItem, children⟩ := held.exists_node there
  obtain ⟨sameChild, sameItem⟩ := onlyLinks node
  refine ⟨change node, below, ?_, ?_, ?_⟩
  · rw [changed, nodeThere, Option.map_some]
  · rw [sameItem, isItem]
  · rw [sameChild]
    exact children.congr sameBelow

/-! ## Loops -/

/-- The loop of the setter finds the item that it finds in the list. -/
theorem findSubitem_of_holds
    (held : Holds store prev first layouts items)
    (named : ∀ item ∈ items, item.string.isSome)
    (key : Bytes)
    {fuel : Nat}
    (large : items.length < fuel) :
    ∃ found, CJSON.findAttribute key CJSON.isNumber items = .ok found ∧
      findSubitem key fuel first store =
        .ok (found.bind fun found => (chain layouts)[found.1]?) := by
  induction held generalizing fuel with
  | nil =>
      obtain ⟨fuel, rfl⟩ := Nat.exists_eq_add_one.mpr large
      exact ⟨none, rfl, rfl⟩
  | @cons prev layout layouts node items rest there back below behind belowHypothesis
      behindHypothesis =>
      obtain ⟨fuel, rfl⟩ := Nat.exists_eq_add_one.mpr (Nat.zero_lt_of_lt large)
      obtain ⟨isNamed, named⟩ := List.forall_mem_cons.mp named
      obtain ⟨string, present⟩ := Option.isSome_iff_exists.mp isNamed
      have name : node.string = some string := present
      have enough : rest.length < fuel := Nat.lt_of_succ_lt_succ large
      obtain ⟨found, searched, walked⟩ := behindHypothesis named enough
      rw [CJSON.findAttribute, findSubitem, load_of_node there]
      simp only [present, name, Outcome.ok_bind]
      by_cases here : key = string.val ∧ node.type = .number
      · have accepted : key = string.val ∧
            CJSON.isNumber (node.item items).type = true :=
          ⟨here.1, decide_eq_true here.2⟩
        rw [if_pos here, if_pos accepted]
        exact ⟨_, rfl, rfl⟩
      · have refused : ¬ (key = string.val ∧
            CJSON.isNumber (node.item items).type = true) :=
          fun both => here ⟨both.1, of_decide_eq_true both.2⟩
        rw [if_neg here, if_neg refused, searched]
        refine ⟨_, rfl, ?_⟩
        refine walked.trans ?_
        cases found with
        | none => rfl
        | some found => rfl

/-- The loop of the replacement counts to the place of the item in the list. -/
theorem indexLike_of_holds
    (held : Holds store prev first layouts items)
    (string : CString)
    (i : Nat)
    {fuel : Nat}
    (large : items.length < fuel) :
    indexLike string fuel i first store =
      .ok ((items.findIdx? fun item => item.namedLike string).map (· + i)) := by
  induction held generalizing fuel i with
  | nil =>
      obtain ⟨fuel, rfl⟩ := Nat.exists_eq_add_one.mpr large
      rfl
  | @cons prev layout layouts node items rest there back below behind belowHypothesis
      behindHypothesis =>
      obtain ⟨fuel, rfl⟩ := Nat.exists_eq_add_one.mpr (Nat.zero_lt_of_lt large)
      have enough : rest.length < fuel := Nat.lt_of_succ_lt_succ large
      rw [indexLike, load_of_node there, Outcome.ok_bind, List.findIdx?_cons]
      by_cases like : strcasecmp node.string (some string) = 0
      · have isLike : (node.item items).namedLike string = true := decide_eq_true like
        rw [if_pos like, if_pos isLike, Option.map_some, Nat.zero_add]
        rfl
      · have notLike : ¬ (node.item items).namedLike string = true :=
          fun isLike => like (of_decide_eq_true isLike)
        rw [if_neg like, if_neg notLike, Option.map_map]
        refine (behindHypothesis (i + 1) enough).trans ?_
        congr 2
        funext place
        exact (Nat.add_right_comm place 1 i).symm

/-- A counted loop stops at the place. -/
theorem itemAt_of_holds
    (held : Holds store prev first layouts items)
    (which : Nat) :
    itemAt which first store = .ok (chain layouts)[which]? := by
  induction held generalizing which with
  | nil => cases which <;> rfl
  | @cons prev layout layouts node items rest there back below behind belowHypothesis
      behindHypothesis =>
      cases which with
      | zero => rfl
      | succ which =>
          rw [itemAt, load_of_node there]
          exact behindHypothesis which

end Held

/-! ## Deletion -/

/-- Deleting a chain removes all its addresses, and nothing else. -/
theorem delete_of_holds
    (fuel : Nat)
    {store : Store}
    {prev first : Option Address}
    {layouts : List Layout}
    {items : List CJSON}
    (held : Holds store prev first layouts items)
    (distinct : (addressesOf layouts).Nodup)
    (large : (addressesOf layouts).length < fuel) :
    ∃ after, delete fuel first store = .ok after ∧
      ∀ address, after.node address =
        if address ∈ addressesOf layouts then none else store.node address := by
  induction fuel generalizing store prev first layouts items with
  | zero => exact absurd large (Nat.not_lt_zero _)
  | succ fuel inductionHypothesis =>
      cases held with
      | nil => exact ⟨store, rfl, fun address => by simp [addressesOf]⟩
      | @cons prev layout layouts node items rest there back below behind =>
          rw [addressesOf, addresses_eq, List.cons_append] at distinct large ⊢
          obtain ⟨apart, distinct⟩ := List.nodup_cons.mp distinct
          obtain ⟨belowDistinct, behindDistinct, disjoint⟩ := List.nodup_append'.mp distinct
          rw [List.length_cons, List.length_append] at large
          obtain ⟨middle, deleted, isMiddle⟩ :=
            inductionHypothesis below belowDistinct (by omega)
          have notBelow : layout.address ∉ addressesOf layout.child :=
            fun isBelow => apart (List.mem_append_left _ isBelow)
          have stillThere : middle.node layout.address = some node := by
            rw [isMiddle, if_neg notBelow, there]
          -- What is behind is not touched by the deletion of the children.
          have behindHeld : Holds (middle.remove layout.address) (some layout.address)
              node.next layouts rest := by
            refine behind.congr fun address isBehind => ?_
            have notHere : layout.address ≠ address := by
              rintro rfl
              exact apart (List.mem_append_right _ isBehind)
            rw [node_remove, if_neg notHere, isMiddle,
              if_neg fun isBelow => disjoint isBelow isBehind]
          obtain ⟨after, deletedBehind, isAfter⟩ :=
            inductionHypothesis behindHeld behindDistinct (by omega)
          refine ⟨after, ?_, fun address => ?_⟩
          · rw [delete, load_of_node there, Outcome.ok_bind, deleted, Outcome.ok_bind,
              free_of_node stillThere, Outcome.ok_bind]
            exact deletedBehind
          · rw [isAfter, node_remove, isMiddle]
            rw [← ite_or, ← ite_or]
            refine if_congr ?_ rfl rfl
            rw [List.mem_cons, List.mem_append, @eq_comm _ address]
            tauto

end Store
end ProtobufSandbox
