import ProtobufSandbox.Foundation.TransitionSystem
import ProtobufSandbox.Json.Mutation
import ProtobufSandbox.Json.RoundTrip

/-!
# Numbers that are stored twice

A number item has an integer and a double. The tree is coherent when the integer
is the double truncated toward zero everywhere, so that the two getters agree.
Numbers that are created, copied or replaced have both fields written together;
a number that is written in place has one of them written.
-/

namespace ProtobufSandbox
namespace CJSON

/-- A number truncated toward zero. -/
def truncate (number : Rat) : Int :=
  if number < 0 then -⌊-number⌋ else ⌊number⌋

/-- The number fits an `int` once it is truncated. -/
def InIntRange (number : Rat) : Prop :=
  Int32.minValue.toInt ≤ truncate number ∧
    truncate number ≤ Int32.maxValue.toInt

instance InIntRange.decidable (number : Rat) : Decidable (InIntRange number) :=
  inferInstanceAs (Decidable (_ ∧ _))

/-- The two fields of a number agree. -/
def CoherentNode (item : CJSON) : Prop :=
  item.type = .number → item.valueint.toInt = truncate item.valuedouble

/-- The fields of all numbers of the tree agree. -/
def Coherent (item : CJSON) : Prop :=
  ∀ node ∈ item.nodes, node.CoherentNode

/-- Both getters of numbers answer for the same attributes with the same number,
truncated. -/
def AgreeOn (JSONObj : List CJSON) : Prop :=
  ∀ key valueint valuedouble,
    getAttributeValueInt JSONObj key = .ok (some valueint) →
      getAttributeValueDouble JSONObj key = .ok (some valuedouble) →
        valueint.toInt = truncate valuedouble

/-- The getters agree wherever they are called: on the tree, and on an item in
it and what is behind it. -/
structure GettersAgree (item : CJSON) : Prop where
  root : AgreeOn [item]
  below : ∀ node ∈ item.nodes, node.IsContainer →
    ∀ place, AgreeOn (node.child.drop place)

/-! ## Coherent trees -/

/-- The conversion truncates a number that fits. -/
theorem toInt_toInt
    {number : Rat}
    (inRange : InIntRange number) :
    (toInt number).toInt = truncate number := by
  have converted : toInt number = Int32.ofInt (truncate number) :=
    if_pos inRange
  rw [converted]
  exact Int32.toInt_ofInt_of_le inRange.1 (Int.lt_of_le_of_lt inRange.2 (by decide))

/-- A tree is coherent when its root and its children are. -/
theorem coherent_iff (item : CJSON) :
    item.Coherent ↔
      item.CoherentNode ∧
        (item.IsContainer → ∀ child ∈ item.child, child.Coherent) := by
  rw [Coherent, nodes_eq, List.forall_mem_cons]
  refine and_congr_right fun _ => ?_
  by_cases container : item.IsContainer
  · rw [if_pos container, nodesOf_eq_flatMap]
    simp only [List.mem_flatMap, forall_exists_index, and_imp]
    exact ⟨fun all _ child present node below => all node child present below,
      fun all node child present below => all container child present node below⟩
  · rw [if_neg container]
    simp [container]

theorem Coherent.node
    {item : CJSON}
    (coherent : item.Coherent) :
    item.CoherentNode :=
  ((coherent_iff item).mp coherent).1

/-- Whether a tree is coherent does not depend on its name. -/
theorem coherent_with_string
    (item : CJSON)
    (string : Option CString) :
    ({ item with string := string } : CJSON).Coherent ↔ item.Coherent := by
  rw [coherent_iff, coherent_iff]
  rfl

/-- New children. -/
theorem Coherent.with_child
    {item : CJSON}
    {child : List CJSON}
    (coherent : item.Coherent)
    (children : item.IsContainer → ∀ item ∈ child, item.Coherent) :
    ({ item with child := child } : CJSON).Coherent := by
  rw [coherent_iff]
  exact ⟨coherent.node, children⟩

theorem Coherent.of_mem_child
    {item child : CJSON}
    (coherent : item.Coherent)
    (container : item.IsContainer)
    (present : child ∈ item.child) :
    child.Coherent :=
  ((coherent_iff item).mp coherent).2 container child present

/-- Every item of a coherent tree is the root of one. -/
theorem Coherent.of_mem_nodes
    {item node : CJSON}
    (coherent : item.Coherent)
    (below : node ∈ item.nodes) :
    node.Coherent := by
  induction item using CJSON.induction with
  | node item inductionHypothesis =>
      rw [nodes_eq] at below
      cases List.mem_cons.mp below with
      | inl equal => exact equal ▸ coherent
      | inr deeper =>
          by_cases container : item.IsContainer
          · rw [if_pos container, nodesOf_eq_flatMap] at deeper
            obtain ⟨child, present, deeper⟩ := List.mem_flatMap.mp deeper
            exact inductionHypothesis child present
              (coherent.of_mem_child container present) deeper
          · rw [if_neg container] at deeper
            exact absurd deeper List.not_mem_nil

/-- The getters of numbers read both fields of one item. -/
theorem agreeOn_of_coherent
    {JSONObj : List CJSON}
    (coherent : ∀ item ∈ JSONObj, item.Coherent) :
    AgreeOn JSONObj := by
  intro key valueint valuedouble gotInt gotDouble
  obtain ⟨found, got, sameInt⟩ := Outcome.map_eq_ok_iff.mp gotInt
  obtain ⟨item, rfl, rfl⟩ := Option.map_eq_some_iff.mp sameInt
  obtain ⟨other, gotOther, sameDouble⟩ := Outcome.map_eq_ok_iff.mp gotDouble
  obtain rfl : some item = other := Except.ok.inj (got.symm.trans gotOther)
  cases sameDouble
  unfold getAttribute at got
  cases JSONObj with
  | nil => cases got
  | cons head next =>
      obtain ⟨place, searched, found⟩ := Outcome.map_eq_ok_iff.mp got
      obtain ⟨pair, rfl, rfl⟩ := Option.map_eq_some_iff.mp found
      obtain ⟨there, -, accepted⟩ := of_findAttribute_eq_some searched
      have items : ∀ item ∈ subitems isNumber head next, item.Coherent := by
        unfold subitems
        split
        · exact coherent
        · split
          · next isObject =>
              intro item present
              exact (coherent head List.mem_cons_self).of_mem_child
                (Or.inr isObject) present
          · exact fun item present =>
              coherent item (List.mem_cons_of_mem _ present)
      have both := items pair.2 (List.mem_of_getElem? there)
      exact both.node (decide_eq_true_eq.mp accepted)

/-- In a coherent tree the getters agree. -/
theorem Coherent.gettersAgree
    {item : CJSON}
    (coherent : item.Coherent) :
    item.GettersAgree where
  root := agreeOn_of_coherent (List.forall_mem_singleton.mpr coherent)
  below := by
    intro node below container place
    apply agreeOn_of_coherent
    intro child present
    exact (coherent.of_mem_nodes below).of_mem_child container
      (List.mem_of_mem_drop present)

/-- An item that is no number and has no children that count. -/
theorem coherent_of_scalar
    {item : CJSON}
    (notNumber : item.type ≠ .number)
    (noContainer : ¬ item.IsContainer) :
    item.Coherent := by
  rw [coherent_iff]
  exact ⟨fun number => absurd number notNumber,
    fun container => absurd container noContainer⟩

theorem coherent_createObject : createObject.Coherent := by
  rw [coherent_iff]
  exact ⟨CJSONType.noConfusion, fun _ _ present => absurd present List.not_mem_nil⟩

/-- A new number that fits. -/
theorem coherent_createNumber
    {number : Rat}
    (inRange : InIntRange number) :
    (createNumber number).Coherent := by
  rw [coherent_iff]
  exact ⟨fun _ => toInt_toInt inRange, fun _ _ present => absurd present List.not_mem_nil⟩

/-- An integer fits. -/
theorem inIntRange_intCast (number : Int32) : InIntRange number.toInt := by
  have truncated : truncate (number.toInt : Rat) = number.toInt := by
    rw [truncate, ← Int.cast_neg, Int.floor_intCast, Int.floor_intCast, neg_neg,
      ite_self]
  rw [InIntRange, truncated]
  exact ⟨number.le_toInt, number.toInt_le⟩

/-- What is in one of two related lists is related to something in the other. -/
theorem exists_same_of_mem
    {items others : List CJSON}
    {item : CJSON}
    (same : List.Forall₂ Same items others)
    (present : item ∈ items) :
    ∃ other ∈ others, Same item other := by
  induction same with
  | nil => exact absurd present List.not_mem_nil
  | cons head tail inductionHypothesis =>
      cases List.mem_cons.mp present with
      | inl equal => exact ⟨_, List.mem_cons_self, equal ▸ head⟩
      | inr later =>
          obtain ⟨other, isOther, same⟩ := inductionHypothesis later
          exact ⟨other, List.mem_cons_of_mem _ isOther, same⟩

/-- A tree that says what a coherent tree says is coherent. -/
theorem Coherent.of_content_eq
    {item other : CJSON}
    (coherent : other.Coherent)
    (same : item.content = other.content) :
    item.Coherent := by
  induction item using CJSON.induction generalizing other with
  | node item inductionHypothesis =>
      have both : Same { item with string := none }
          { other with string := none } := by
        refine ⟨rfl, ?_⟩
        rw [content_with_string, content_with_string, same]
      obtain ⟨-, type, -, number, children⟩ := (same_iff _ _).mp both
      have otherNode := coherent.node
      rw [coherent_iff]
      constructor
      · intro isNumber
        obtain ⟨sameInt, sameDouble⟩ := number isNumber
        have agree := otherNode (type ▸ isNumber)
        dsimp only at sameInt sameDouble
        rw [sameInt, sameDouble, agree]
      · intro container child present
        have otherContainer : other.IsContainer := by
          unfold IsContainer at container ⊢
          dsimp only at type
          rwa [← type]
        obtain ⟨otherChild, isOther, sameChild⟩ :=
          exists_same_of_mem (children container) present
        exact inductionHypothesis child present
          (coherent.of_mem_child otherContainer isOther) sameChild.2

/-! ## Copies -/

/-- The numbers that a copy of the item holds fit an `int`: a number is copied as
it is, the numbers of an array or object are printed and parsed. -/
def CopiesInRange (item : CJSON) : Prop :=
  (item.type = .number → InIntRange item.valuedouble) ∧
    (item.IsContainer → ∀ node ∈ item.nodes,
      node.type = .number → InIntRange node.printedValue)

/-- A tree is read back as a coherent one if its numbers fit as they are
printed. -/
theorem coherent_reread
    {item : CJSON}
    (inRange : ∀ node ∈ item.nodes,
      node.type = .number → InIntRange node.printedValue) :
    item.reread.Coherent := by
  induction item using CJSON.induction with
  | node item inductionHypothesis =>
      have children (container : item.IsContainer) :
          ∀ child ∈ item.child, child.reread.Coherent := by
        intro child present
        exact inductionHypothesis child present fun node below =>
          inRange node (mem_nodes_of_mem_child container present below)
      have node := inRange item item.mem_nodes_self
      rw [coherent_iff]
      cases type : item.type with
      | false | true | null | string =>
          obtain ⟨child, _, valuestring, valueint, valuedouble, string⟩ := item
          subst type
          exact (coherent_iff _).mp
            (coherent_of_scalar (by simp [reread]) (by simp [reread, IsContainer]))
      | number =>
          have fits := toInt_toInt (node type)
          obtain ⟨child, _, valuestring, valueint, valuedouble, string⟩ := item
          subst type
          exact ⟨fun _ => fits, by simp [reread, IsContainer]⟩
      | array =>
          have elements := children (Or.inl type)
          obtain ⟨child, _, valuestring, valueint, valuedouble, string⟩ := item
          subst type
          refine ⟨by simp [reread, CoherentNode], fun _ => ?_⟩
          rw [reread, rereadElements_eq_map]
          intro other present
          obtain ⟨element, isElement, rfl⟩ := List.mem_map.mp present
          exact (coherent_with_string _ none).mpr (elements element isElement)
      | object =>
          have members := children (Or.inr type)
          obtain ⟨child, _, valuestring, valueint, valuedouble, string⟩ := item
          subst type
          refine ⟨by simp [reread, CoherentNode], fun _ => ?_⟩
          rw [reread, rereadMembers_eq_map]
          intro other present
          obtain ⟨member, isMember, rfl⟩ := List.mem_map.mp present
          exact members member isMember

/-- A copy is coherent if the numbers it holds fit. -/
theorem coherent_copyOf
    {item : CJSON}
    {newitem : Option CJSON}
    (printable : item.Printable)
    (inRange : item.CopiesInRange)
    (copied : copyOf item = .ok newitem) :
    ∀ new ∈ newitem, new.Coherent := by
  intro new isNew
  by_cases container : item.IsContainer
  · have notNumber (number : item.type = .number) : Delimited [0] := by
      rcases container with array | object
      · rw [array] at number
        cases number
      · rw [object] at number
        cases number
    obtain ⟨child, reads, -, same⟩ :=
      parse_printValue_reread printable true notNumber
    rw [eq_of_copyOf_container container copied] at isNew
    obtain rfl : child = new := by
      rw [print, reads] at isNew
      exact Option.some.inj isNew
    exact (coherent_reread (inRange.2 container)).of_content_eq same
  · obtain ⟨same, rfl, type, number⟩ := exists_of_copyOf_scalar container copied
    obtain rfl := Option.some.inj isNew
    by_cases isNumber : item.type = .number
    · rw [number isNumber]
      exact coherent_createNumber (inRange.1 isNumber)
    · apply coherent_of_scalar
      · rwa [type]
      · unfold IsContainer at container ⊢
        rwa [type]

/-! ## Single operations -/

/-- Adding a coherent item. -/
theorem Coherent.addItemToArray
    {item new : CJSON}
    (coherent : item.Coherent)
    (newCoherent : item.IsContainer → new.Coherent) :
    (item.addItemToArray new).Coherent := by
  apply coherent.with_child
  intro container child present
  cases List.mem_append.mp present with
  | inl old => exact coherent.of_mem_child container old
  | inr added => exact List.mem_singleton.mp added ▸ newCoherent container

theorem Coherent.addItemToObject
    {item : CJSON}
    {new : Option CJSON}
    (coherent : item.Coherent)
    (newCoherent : item.IsContainer → ∀ other ∈ new, other.Coherent)
    (string : CString) :
    (item.addItemToObject string new).Coherent := by
  cases new with
  | none => exact coherent
  | some new =>
      apply coherent.addItemToArray
      intro container
      exact (coherent_with_string new (some string)).mpr
        (newCoherent container new rfl)

/-- Putting a coherent item in the place of another. -/
theorem Coherent.replaceItemInArray
    {item new : CJSON}
    (coherent : item.Coherent)
    (newCoherent : item.IsContainer → new.Coherent)
    (which : Nat) :
    (item.replaceItemInArray which new).Coherent := by
  apply coherent.with_child
  intro container child present
  cases List.mem_or_eq_of_mem_set present with
  | inl old => exact coherent.of_mem_child container old
  | inr equal => exact equal ▸ newCoherent container

/-- What a replacement under a name leaves: the fields of the item, and its
children apart from the one that is found. -/
theorem replaceItemInObject_spec
    {item after : CJSON}
    {string : CString}
    {new : Option CJSON}
    (coherent : item.Coherent)
    (newCoherent : ∀ other ∈ new, other.Coherent)
    (replaced : item.replaceItemInObject string new = .ok after) :
    after.Coherent ∧ after.type = item.type ∧ after.valueint = item.valueint ∧
      ∀ index, item.indexLike string ≠ some index →
        after.child[index]? = item.child[index]? := by
  unfold replaceItemInObject at replaced
  cases first : item.indexLike string with
  | none =>
      rw [first] at replaced
      cases replaced
      exact ⟨coherent, rfl, rfl, fun _ _ => rfl⟩
  | some which =>
      cases new with
      | none => simp [first] at replaced
      | some new =>
          simp only [first, Except.ok.injEq] at replaced
          subst replaced
          have named := (coherent_with_string new (some string)).mpr
            (newCoherent new rfl)
          refine ⟨coherent.replaceItemInArray (fun _ => named) which, rfl, rfl, ?_⟩
          intro index other
          exact List.getElem?_set_ne fun equal => other (congrArg some equal)

/-- Writing one subitem in place. -/
theorem Coherent.writeSubitem
    {item after : CJSON}
    {rest : List CJSON}
    {scalar : CJSONType → Bool}
    {index : Nat}
    {write : CJSON → CJSON}
    (coherent : item.Coherent)
    (writes : ∀ subitem, (subitems scalar item [])[index]? = some subitem →
      subitem.Coherent → (write subitem).Coherent)
    (written : writeSubitem scalar item [] index write = after :: rest) :
    after.Coherent := by
  have modified {items : List CJSON} {child : CJSON}
      (same : subitems scalar item [] = items)
      (all : ∀ other ∈ items, other.Coherent)
      (present : child ∈ items.modify index write) : child.Coherent := by
    rw [List.modify_eq_set_getElem?] at present
    cases there : items[index]? with
    | none =>
        rw [there] at present
        exact all child present
    | some old =>
        rw [there] at present
        cases List.mem_or_eq_of_mem_set present with
        | inl kept => exact all child kept
        | inr equal =>
            exact equal ▸ writes old (same ▸ there)
              (all old (List.mem_of_getElem? there))
  unfold CJSON.writeSubitem withSubitems at written
  by_cases isScalar : scalar item.type = true
  · have items : subitems scalar item [] = [item] := if_pos isScalar
    rw [if_pos isScalar, items] at written
    apply modified items (List.forall_mem_singleton.mpr coherent)
    exact written ▸ List.mem_cons_self
  · rw [if_neg isScalar] at written
    by_cases isObject : item.type = .object
    · have items : subitems scalar item [] = item.child := by
        rw [CJSON.subitems, if_neg isScalar, if_pos isObject]
      rw [if_pos isObject, items] at written
      obtain ⟨rfl, -⟩ := List.cons.inj written
      apply coherent.with_child
      intro container child present
      exact modified items (fun _ => coherent.of_mem_child container) present
    · rw [if_neg isObject] at written
      obtain ⟨rfl, -⟩ := List.cons.inj written
      exact coherent

/-! ## Setters -/

/-- The setter that finds this item replaces it, and does not write it. -/
def ReplacesFound (item : CJSON) (key : Bytes) (index : Nat) : Prop :=
  item.type = .object ∧ item.indexLike (CString.ofBuffer key) = some index

/-- The attribute that a setter of numbers finds, with its place. -/
def FindsNumber
    (item : CJSON)
    (key : Bytes)
    (index : Nat)
    (found : CJSON) : Prop :=
  findAttribute key isNumber (subitems isNumber item []) =
    .ok (some (index, found))

/-- A subitem that a replacement leaves in its place keeps its integer. -/
theorem valueint_eq_of_subitems
    {item replaced found other : CJSON}
    {scalar : CJSONType → Bool}
    {index : Nat}
    (sameType : replaced.type = item.type)
    (sameInt : replaced.valueint = item.valueint)
    (sameItem : item.type = .object →
      replaced.child[index]? = item.child[index]?)
    (there : (subitems scalar item [])[index]? = some found)
    (isOther : (subitems scalar replaced [])[index]? = some other) :
    other.valueint = found.valueint := by
  unfold subitems at there isOther
  rw [sameType] at isOther
  by_cases isScalar : scalar item.type = true
  · rw [if_pos isScalar] at there isOther
    cases index with
    | zero =>
        obtain rfl := Option.some.inj isOther
        obtain rfl := Option.some.inj there
        exact sameInt
    | succ index => cases there
  · rw [if_neg isScalar] at there isOther
    by_cases isObject : item.type = .object
    · rw [if_pos isObject] at there isOther
      rw [sameItem isObject, there] at isOther
      exact Option.some.inj isOther ▸ rfl
    · rw [if_neg isObject] at there
      cases there

/-- The setters of numbers and strings keep a tree coherent if the item they
write in place stays coherent. -/
theorem Coherent.replaceAttribute
    {item newitem after : CJSON}
    {rest : List CJSON}
    {key : Bytes}
    {scalar : CJSONType → Bool}
    {write : CJSON → CJSON}
    (coherent : item.Coherent)
    (newCoherent : newitem.Coherent)
    (writes : ∀ index found,
      findAttribute key scalar (subitems scalar item []) =
          .ok (some (index, found)) →
        item.ReplacesFound key index ∨
          ∀ subitem : CJSON, subitem.valueint = found.valueint →
            subitem.Coherent → (write subitem).Coherent)
    (called : replaceAttribute scalar write [item] key newitem =
      .ok (after :: rest)) :
    after.Coherent := by
  unfold CJSON.replaceAttribute at called
  obtain ⟨found, searched, called⟩ := Outcome.bind_eq_ok_iff.mp called
  have new : ∀ other ∈ some newitem, other.Coherent :=
    fun other same => Option.some.inj same ▸ newCoherent
  cases found with
  | none =>
      cases called
      exact coherent.addItemToObject (fun _ => new) _
  | some pair =>
      obtain ⟨index, subitem⟩ := pair
      obtain ⟨there, named, -⟩ := of_findAttribute_eq_some searched
      obtain ⟨string, present, spelled⟩ := Option.map_eq_some_iff.mp named
      obtain rfl : CString.ofBuffer key = string := by
        rw [← spelled, CString.ofBuffer_val]
      simp only [present] at called
      obtain ⟨replaced, replacing, called⟩ := Outcome.bind_eq_ok_iff.mp called
      obtain ⟨replacedCoherent, sameType, sameInt, sameItem⟩ :=
        replaceItemInObject_spec coherent new replacing
      by_cases deleted : item.type = .object ∧
          item.indexLike (CString.ofBuffer key) = some index
      · rw [if_pos deleted] at called
        cases called
        exact replacedCoherent
      · have live := (writes index subitem searched).resolve_left deleted
        rw [if_neg deleted] at called
        refine replacedCoherent.writeSubitem (fun other isOther => ?_)
          (Except.ok.inj called)
        apply live other
        -- The item that is written is the one that was found.
        refine valueint_eq_of_subitems sameType sameInt (fun isObject => ?_) there
          isOther
        exact sameItem index fun equal => deleted ⟨isObject, equal⟩

section Setters

variable {item after : CJSON} {rest : List CJSON} {key : Bytes}

theorem Coherent.setAttributeValueInt
    {valueint : Int32}
    (coherent : item.Coherent)
    (whole : ∀ index found, item.FindsNumber key index found →
      item.ReplacesFound key index ∨ found.valueint = valueint)
    (called : setAttributeValueInt [item] key valueint = .ok (after :: rest)) :
    after.Coherent := by
  have new := coherent_createNumber (inIntRange_intCast valueint)
  refine coherent.replaceAttribute new (fun index found finds => ?_) called
  refine (whole index found finds).imp_right fun same subitem sameInt subCoherent => ?_
  have unchanged : { subitem with valueint := valueint } = subitem := by
    rw [← same, ← sameInt]
    cases subitem
    rfl
  exact unchanged.symm ▸ subCoherent

theorem Coherent.setAttributeValueDouble
    {valuedouble : Rat}
    (coherent : item.Coherent)
    (inRange : InIntRange valuedouble)
    (called : setAttributeValueDouble [item] key valuedouble =
      .ok (after :: rest)) :
    after.Coherent :=
  coherent.replaceAttribute (coherent_createNumber inRange)
    (fun _ _ _ => .inr fun _ _ kept => kept) called

theorem Coherent.setAttributeValueString
    {valuestring : Bytes}
    (coherent : item.Coherent)
    (called : setAttributeValueString [item] key valuestring =
      .ok (after :: rest)) :
    after.Coherent := by
  have new : (createString (CString.ofBuffer valuestring)).Coherent :=
    coherent_of_scalar CJSONType.noConfusion (by simp [createString, IsContainer])
  exact coherent.replaceAttribute new (fun _ _ _ => .inr fun _ _ kept => kept)
    called

theorem Coherent.setAttributeValueBool
    {valuebool : Bool}
    (coherent : item.Coherent)
    (called : setAttributeValueBool [item] key valuebool = .ok (after :: rest)) :
    after.Coherent := by
  unfold CJSON.setAttributeValueBool at called
  obtain ⟨found, -, called⟩ := Outcome.bind_eq_ok_iff.mp called
  cases found with
  | none =>
      cases called
      apply coherent.addItemToObject
      rintro - new ⟨rfl⟩
      cases valuebool with
      | false =>
          exact coherent_of_scalar CJSONType.noConfusion
            (by simp [createFalse, IsContainer])
      | true =>
          exact coherent_of_scalar CJSONType.noConfusion
            (by simp [createTrue, IsContainer])
  | some pair =>
      apply coherent.writeSubitem ?_ (Except.ok.inj called)
      intro subitem _ _
      cases valuebool with
      | false =>
          exact coherent_of_scalar CJSONType.noConfusion (by simp [IsContainer])
      | true =>
          exact coherent_of_scalar CJSONType.noConfusion (by simp [IsContainer])

/-- The getters of numbers answer with the number that is found. -/
theorem getAttribute_of_findsNumber
    {index : Nat}
    {found : CJSON}
    (finds : item.FindsNumber key index found) :
    getAttribute isNumber isNumber [item] key = .ok (some found) := by
  unfold FindsNumber at finds
  unfold getAttribute
  dsimp only
  rw [finds]
  rfl

theorem Coherent.incrAttributeValueInt
    {incr : Int32}
    {answer : Bool}
    (coherent : item.Coherent)
    (whole : ∀ index found, item.FindsNumber key index found →
      item.ReplacesFound key index ∨ incr = 0)
    (called : incrAttributeValueInt [item] key incr =
      .ok (answer, after :: rest)) :
    after.Coherent := by
  unfold CJSON.incrAttributeValueInt at called
  obtain ⟨value, asked, called⟩ := Outcome.bind_eq_ok_iff.mp called
  cases value with
  | none =>
      cases called
      exact coherent
  | some curVal =>
      dsimp only at called
      split at called
      · obtain ⟨changed, set, called⟩ := Outcome.bind_eq_ok_iff.mp called
        cases called
        refine coherent.setAttributeValueInt (fun index found finds => ?_) set
        refine (whole index found finds).imp_right ?_
        rintro rfl
        have current : found.valueint = curVal := by
          rw [getAttributeValueInt, getAttribute_of_findsNumber finds] at asked
          exact Option.some.inj (Except.ok.inj asked)
        have unchanged : curVal.toInt + (0 : Int32).toInt = curVal.toInt :=
          Int.add_zero _
        rw [unchanged, Int32.ofInt_toInt, current]
      · cases called

theorem Coherent.incrAttributeValueDouble
    {incr : Rat}
    {answer : Bool}
    (coherent : item.Coherent)
    (inRange : ∀ index found, item.FindsNumber key index found →
      InIntRange (found.valuedouble + incr))
    (called : incrAttributeValueDouble [item] key incr =
      .ok (answer, after :: rest)) :
    after.Coherent := by
  unfold CJSON.incrAttributeValueDouble at called
  obtain ⟨value, asked, called⟩ := Outcome.bind_eq_ok_iff.mp called
  obtain ⟨found, got, rfl⟩ := Outcome.map_eq_ok_iff.mp asked
  obtain ⟨place, searched, rfl⟩ := Outcome.map_eq_ok_iff.mp got
  cases place with
  | none =>
      cases called
      exact coherent
  | some pair =>
      obtain ⟨changed, set, called⟩ := Outcome.bind_eq_ok_iff.mp called
      cases called
      exact coherent.setAttributeValueDouble (inRange pair.1 pair.2 searched) set

end Setters

/-! ## Calls that copy -/

/-- Installing a coherent copy. -/
theorem Coherent.install
    {item : CJSON}
    {next result : List CJSON}
    {key : CString}
    {newitem : Option CJSON}
    (coherent : item.Coherent)
    (newCoherent : ∀ new ∈ newitem, new.Coherent)
    (called : install (item :: next) key newitem = .ok result) :
    ∃ after, result = after :: next ∧ after.Coherent := by
  unfold CJSON.install at called
  obtain ⟨found, -, called⟩ := Outcome.bind_eq_ok_iff.mp called
  cases found with
  | true =>
      obtain ⟨replaced, replacing, called⟩ := Outcome.bind_eq_ok_iff.mp called
      cases called
      exact ⟨replaced, rfl,
        (replaceItemInObject_spec coherent newCoherent replacing).1⟩
  | false =>
      cases called
      exact ⟨_, rfl, coherent.addItemToObject (fun _ => newCoherent) key⟩

/-- A merge installs a copy of each item. -/
theorem Coherent.mergeItems
    {items : List CJSON}
    {item : CJSON}
    {next result : List CJSON}
    (coherent : item.Coherent)
    (printable : ∀ copied ∈ items, copied.Printable)
    (inRange : ∀ copied ∈ items, copied.CopiesInRange)
    (called : mergeItems (item :: next) items = .ok result) :
    ∃ after, result = after :: next ∧ after.Coherent := by
  induction items generalizing item with
  | nil =>
      cases called
      exact ⟨item, rfl, coherent⟩
  | cons source items inductionHypothesis =>
      obtain ⟨sourcePrintable, printable⟩ := List.forall_mem_cons.mp printable
      obtain ⟨sourceInRange, inRange⟩ := List.forall_mem_cons.mp inRange
      obtain ⟨key, newitem, chain, -, -, copied, installed, called⟩ :=
        of_mergeItems_cons_eq_ok called
      obtain ⟨middle, rfl, middleCoherent⟩ := coherent.install
        (coherent_copyOf sourcePrintable sourceInRange copied) installed
      exact inductionHypothesis middleCoherent printable inRange called

theorem Coherent.copyItem
    {item source : CJSON}
    {next result : List CJSON}
    {targetKey sourceKey : CString}
    {answer : Bool}
    (coherent : item.Coherent)
    (printable : ∀ copied ∈ (source.getObjectItem sourceKey).take 1,
      copied.Printable)
    (inRange : ∀ copied ∈ (source.getObjectItem sourceKey).take 1,
      copied.CopiesInRange)
    (called : copyItem (item :: next) targetKey source sourceKey =
      .ok (answer, result)) :
    ∃ after, result = after :: next ∧ after.Coherent := by
  unfold CJSON.copyItem at called
  cases looked : source.getObjectItem sourceKey with
  | nil =>
      rw [looked] at called
      cases called
      exact ⟨item, rfl, coherent⟩
  | cons original siblings =>
      rw [looked] at printable inRange
      simp only [looked] at called
      obtain ⟨newitem, copied, called⟩ := Outcome.bind_eq_ok_iff.mp called
      obtain ⟨installed, installing, called⟩ := Outcome.bind_eq_ok_iff.mp called
      cases called
      exact coherent.install
        (coherent_copyOf (printable original List.mem_cons_self)
          (inRange original List.mem_cons_self) copied)
        installing

/-! ## Parameters -/

section Params

variable {α : Type}
variable {create : α → CJSON}
variable {update : α → CJSON → Except AttributeError CJSON}

/-- The object that parameters are added to. -/
def params (item : CJSON) : CJSON :=
  let key := keyOf ['p', 'a', 'r', 'a', 'm', 's']
  (if item.HasMember key then item.firstLike key else none).getD
    { createObject with string := some key }

/-- One turn of the loops of `addParamsMap` as a step. -/
def paramStep
    (create : α → CJSON)
    (update : α → CJSON → Except AttributeError CJSON)
    (args : CJSON)
    (entry : Bytes × α) : Option CJSON :=
  (addParam create update args entry).toOption

theorem paramStep_eq_some_iff
    {args after : CJSON}
    {entry : Bytes × α} :
    paramStep create update args entry = some after ↔
      addParam create update args entry = .ok after := by
  unfold paramStep
  cases addParam create update args entry with
  | error error => simp [Except.toOption]
  | ok changed => simp [Except.toOption]

/-- A parameter keeps its object coherent if the item that it creates is
coherent, and the one that it updates stays so. -/
theorem Coherent.addParam
    {args after : CJSON}
    {entry : Bytes × α}
    (coherent : args.Coherent)
    (creates : args.IsContainer →
      args.firstLike (CString.ofBuffer entry.1) = none →
        (create entry.2).Coherent)
    (updates : args.IsContainer →
      ∀ member ∈ args.firstLike (CString.ofBuffer entry.1), ∀ updated,
        update entry.2 member = .ok updated →
          member.Coherent → updated.Coherent)
    (called : addParam create update args entry = .ok after) :
    after.Coherent := by
  unfold CJSON.addParam at called
  cases first : args.indexLike (CString.ofBuffer entry.1) with
  | none =>
      simp only [first] at called
      cases called
      refine coherent.addItemToObject (fun container => ?_) _
      rintro new ⟨rfl⟩
      apply creates container
      rw [firstLike, List.find?_eq_none]
      rw [indexLike, List.findIdx?_eq_none_iff] at first
      intro member present
      rw [first member present]
      exact Bool.false_ne_true
  | some which =>
      obtain ⟨member, there, found, -⟩ := firstLike_of_indexLike first
      simp only [first, there] at called
      obtain ⟨updated, updating, called⟩ := Outcome.bind_eq_ok_iff.mp called
      cases called
      refine coherent.replaceItemInArray (fun container => ?_) which
      exact updates container member found updated updating
        (coherent.of_mem_child container (List.mem_of_getElem? there))

/-- The loops of `addParamsMap` are runs. -/
theorem run_of_addParams
    {args after : CJSON}
    {entries : List (Bytes × α)}
    (called : addParams create update args entries = .ok after) :
    TransitionSystem.run (paramStep create update) args entries =
      some after := by
  induction entries generalizing args with
  | nil =>
      cases called
      rfl
  | cons entry entries inductionHypothesis =>
      obtain ⟨next, first, rest⟩ := Outcome.bind_eq_ok_iff.mp called
      exact TransitionSystem.run_cons_eq_some.mpr
        ⟨next, paramStep_eq_some_iff.mpr first, inductionHypothesis rest⟩

/-- The object that parameters are added to is coherent. -/
theorem Coherent.params
    {item : CJSON}
    (coherent : item.Coherent)
    (container : item.IsContainer) :
    item.params.Coherent := by
  have new := (coherent_with_string createObject
    (some (keyOf ['p', 'a', 'r', 'a', 'm', 's']))).mpr coherent_createObject
  unfold CJSON.params
  dsimp only
  split
  · cases found : item.firstLike (keyOf ['p', 'a', 'r', 'a', 'm', 's']) with
    | none => exact new
    | some member =>
        exact coherent.of_mem_child container (List.mem_of_find?_eq_some found)
  · exact new

/-- Adding parameters changes the children only. -/
theorem exists_child_of_addParamsMap
    {item : CJSON}
    {next result : List CJSON}
    {entries : List (Bytes × α)}
    {answer : Bool}
    (called : addParamsMap create update (item :: next) entries =
      .ok (answer, result)) :
    ∃ child, result = { item with child := child } :: next := by
  unfold addParamsMap at called
  obtain ⟨found, -, called⟩ := Outcome.bind_eq_ok_iff.mp called
  cases found with
  | false =>
      obtain ⟨args, -, called⟩ := Outcome.bind_eq_ok_iff.mp called
      cases called
      exact ⟨_, rfl⟩
  | true =>
      cases first : item.indexLike (keyOf ['p', 'a', 'r', 'a', 'm', 's']) with
      | none =>
          simp only [first, if_true] at called
          split at called
          · cases called
            cases item
            exact ⟨_, rfl⟩
          · cases called
      | some which =>
          obtain ⟨args, there, -⟩ := exists_of_indexLike first
          simp only [first, there, if_true] at called
          obtain ⟨changed, -, called⟩ := Outcome.bind_eq_ok_iff.mp called
          cases called
          exact ⟨_, rfl⟩

/-- Adding parameters keeps a tree coherent if it keeps their object coherent. -/
theorem Coherent.addParamsMap
    {item : CJSON}
    {next result : List CJSON}
    {entries : List (Bytes × α)}
    {answer : Bool}
    (coherent : item.Coherent)
    (adds : item.IsContainer → ∀ args,
      addParams create update item.params entries = .ok args → args.Coherent)
    (called : addParamsMap create update (item :: next) entries =
      .ok (answer, result)) :
    ∃ after, result = after :: next ∧ after.Coherent := by
  by_cases container : item.IsContainer
  · have all := adds container
    unfold CJSON.addParamsMap at called
    obtain ⟨found, asked, called⟩ := Outcome.bind_eq_ok_iff.mp called
    rw [doesAttributeExist_of_container container] at asked
    cases asked
    unfold CJSON.params at all
    by_cases member : item.HasMember (keyOf ['p', 'a', 'r', 'a', 'm', 's'])
    · obtain ⟨which, first⟩ := exists_indexLike_of_mem member.2
      obtain ⟨args, there, found, -⟩ := firstLike_of_indexLike first
      simp only [decide_eq_true member, if_true, first, there] at called
      simp only [if_pos member, found, Option.getD_some] at all
      obtain ⟨changed, added, called⟩ := Outcome.bind_eq_ok_iff.mp called
      cases called
      exact ⟨_, rfl,
        coherent.replaceItemInArray (fun _ => all changed added) which⟩
    · simp only [decide_eq_false member, Bool.false_eq_true, if_false] at called
      simp only [if_neg member, Option.getD_none] at all
      obtain ⟨changed, added, called⟩ := Outcome.bind_eq_ok_iff.mp called
      cases called
      exact ⟨_, rfl, coherent.addItemToArray fun _ => all changed added⟩
  · obtain ⟨child, rfl⟩ := exists_child_of_addParamsMap called
    exact ⟨_, rfl,
      coherent.with_child fun isContainer => absurd isContainer container⟩

end Params

/-- One turn of the loop of `addParamsMap(map<string, double>)`. -/
def paramStepDouble : CJSON → Bytes × Rat → Option CJSON :=
  paramStep createNumber fun value tmpObj =>
    .ok { tmpObj with valuedouble := value }

/-- What a number that is added to an object of parameters has to meet: it fits,
or it only updates the double of a number that has its integer already. -/
def KeepsParam (args : CJSON) (entry : Bytes × Rat) : Prop :=
  args.IsContainer →
    (args.firstLike (CString.ofBuffer entry.1) = none → InIntRange entry.2) ∧
      ∀ member ∈ args.firstLike (CString.ofBuffer entry.1),
        member.type = .number → member.valueint.toInt = truncate entry.2

theorem Coherent.addParamsMapString
    {item : CJSON}
    {next result : List CJSON}
    {entries : List (Bytes × Bytes)}
    {answer : Bool}
    (coherent : item.Coherent)
    (called : addParamsMapString (item :: next) entries =
      .ok (answer, result)) :
    ∃ after, result = after :: next ∧ after.Coherent := by
  refine coherent.addParamsMap (fun container args added => ?_) called
  refine TransitionSystem.run_preserves ?_ (coherent.params container)
    (run_of_addParams added)
  intro args entry after argsCoherent stepped
  refine argsCoherent.addParam (fun _ _ => ?_) (fun _ member _ updated updating => ?_)
    (paramStep_eq_some_iff.mp stepped)
  · exact coherent_of_scalar CJSONType.noConfusion
      (by simp [createString, IsContainer])
  · cases present : member.valuestring with
    | none => simp [present] at updating
    | some old =>
        simp only [present, Except.ok.injEq] at updating
        subst updating
        intro memberCoherent
        rw [coherent_iff] at memberCoherent ⊢
        exact memberCoherent

theorem Coherent.addParamsMapDouble
    {item : CJSON}
    {next result : List CJSON}
    {entries : List (Bytes × Rat)}
    {answer : Bool}
    (coherent : item.Coherent)
    (guarded : item.IsContainer →
      TransitionSystem.Guarded paramStepDouble KeepsParam item.params entries)
    (called : addParamsMapDouble (item :: next) entries =
      .ok (answer, result)) :
    ∃ after, result = after :: next ∧ after.Coherent := by
  refine coherent.addParamsMap (fun container args added => ?_) called
  refine TransitionSystem.run_preserves_of_guarded ?_ (coherent.params container)
    (guarded container) (run_of_addParams added)
  intro args entry after argsCoherent keeps stepped
  refine argsCoherent.addParam (fun container new => ?_)
    (fun container member found updated updating => ?_)
    (paramStep_eq_some_iff.mp stepped)
  · exact coherent_createNumber ((keeps container).1 new)
  · cases updating
    intro memberCoherent
    rw [coherent_iff] at memberCoherent ⊢
    exact ⟨(keeps container).2 member found, memberCoherent.2⟩

/-! ## Runs -/

/-- The items that a call copies. -/
def copiedBy : Mutation → List CJSON
  | .copyItem _ source sourceKey => (source.getObjectItem sourceKey).take 1
  | .merge source => source.child
  | .setInt _ _ | .setBool _ _ | .setDouble _ _ | .setString _ _ => []
  | .incrInt _ _ | .incrDouble _ _ => []
  | .addParamsString _ | .addParamsDouble _ => []

/-- A call on trees: what is copied can be printed. -/
abbrev TreeMutation :=
  { mutation : Mutation // ∀ item ∈ copiedBy mutation, item.Printable }

/-- The tree after a call. -/
def treeStep (item : CJSON) (mutation : TreeMutation) : Option CJSON :=
  item.mutate mutation.val

/-- The condition for a call to keep a tree coherent. An integer that is written
in place, and not into a deleted item, is the one that is there; so is the
integer of a double that is written in place. Other numbers fit an `int`. -/
def KeepsCoherent (item : CJSON) : Mutation → Prop
  | .setInt key valueint =>
      ∀ index found, item.FindsNumber key index found →
        item.ReplacesFound key index ∨ found.valueint = valueint
  | .incrInt key incr =>
      ∀ index found, item.FindsNumber key index found →
        item.ReplacesFound key index ∨ incr = 0
  | .setDouble _ valuedouble => InIntRange valuedouble
  | .incrDouble key incr =>
      ∀ index found, item.FindsNumber key index found →
        InIntRange (found.valuedouble + incr)
  | .addParamsDouble entries =>
      item.IsContainer →
        TransitionSystem.Guarded paramStepDouble KeepsParam item.params entries
  | .setBool _ _ | .setString _ _ | .addParamsString _ => True
  | .copyItem targetKey source sourceKey =>
      ∀ copied ∈ copiedBy (.copyItem targetKey source sourceKey),
        copied.CopiesInRange
  | .merge source => ∀ copied ∈ copiedBy (.merge source), copied.CopiesInRange

/-- A call keeps a tree coherent under its condition. -/
theorem coherent_treeStep
    {item after : CJSON}
    {mutation : TreeMutation}
    (coherent : item.Coherent)
    (keeps : item.KeepsCoherent mutation.val)
    (stepped : item.treeStep mutation = some after) :
    after.Coherent := by
  obtain ⟨mutation, printable⟩ := mutation
  obtain ⟨next, called⟩ := mutate_eq_some_iff.mp stepped
  have conclude
      (changed : ∃ other, after :: next = [other] ∧ other.Coherent) :
      after.Coherent := by
    obtain ⟨other, same, otherCoherent⟩ := changed
    exact (List.cons.inj same).1 ▸ otherCoherent
  cases mutation with
  | setInt key valueint => exact coherent.setAttributeValueInt keeps called
  | setBool key valuebool => exact coherent.setAttributeValueBool called
  | setDouble key valuedouble => exact coherent.setAttributeValueDouble keeps called
  | setString key valuestring => exact coherent.setAttributeValueString called
  | incrInt key incr =>
      obtain ⟨⟨answer, chain⟩, called, rfl⟩ := Outcome.map_eq_ok_iff.mp called
      exact coherent.incrAttributeValueInt keeps called
  | incrDouble key incr =>
      obtain ⟨⟨answer, chain⟩, called, rfl⟩ := Outcome.map_eq_ok_iff.mp called
      exact coherent.incrAttributeValueDouble keeps called
  | copyItem targetKey source sourceKey =>
      obtain ⟨⟨answer, chain⟩, called, rfl⟩ := Outcome.map_eq_ok_iff.mp called
      exact conclude (coherent.copyItem printable keeps called)
  | merge source =>
      obtain ⟨⟨answer, chain⟩, called, rfl⟩ := Outcome.map_eq_ok_iff.mp called
      obtain ⟨merged, called, rest⟩ := Outcome.bind_eq_ok_iff.mp called
      cases rest
      exact conclude (coherent.mergeItems printable keeps called)
  | addParamsString entries =>
      obtain ⟨⟨answer, chain⟩, called, rfl⟩ := Outcome.map_eq_ok_iff.mp called
      exact conclude (coherent.addParamsMapString called)
  | addParamsDouble entries =>
      obtain ⟨⟨answer, chain⟩, called, rfl⟩ := Outcome.map_eq_ok_iff.mp called
      exact conclude (coherent.addParamsMapDouble keeps called)

/-- A tree stays coherent along a run of calls that write no number in one field
only, and the getters of numbers agree all along. -/
theorem coherent_along
    {item : CJSON}
    {mutations : List TreeMutation}
    (coherent : item.Coherent)
    (guarded : TransitionSystem.Guarded treeStep
      (fun item mutation => item.KeepsCoherent mutation.val) item mutations) :
    TransitionSystem.Along treeStep
      (fun item => item.Coherent ∧ item.GettersAgree) item mutations := by
  refine TransitionSystem.along_of_guarded ?_ ⟨coherent, coherent.gettersAgree⟩
    guarded
  intro item mutation after holds keeps stepped
  have afterCoherent := coherent_treeStep holds.1 keeps stepped
  exact ⟨afterCoherent, afterCoherent.gettersAgree⟩

/-- `setAttributeValue_Int` as a call. -/
def TreeMutation.setInt (key : Bytes) (valueint : Int32) : TreeMutation :=
  ⟨.setInt key valueint, fun _ present => absurd present List.not_mem_nil⟩

/-- `addParamsMap(map<string, double>)` as a call. -/
def TreeMutation.addParamsDouble (entries : List (Bytes × Rat)) : TreeMutation :=
  ⟨.addParamsDouble entries, fun _ present => absurd present List.not_mem_nil⟩

/-- `{"params":{"a":1}}`. -/
def oneParam : CJSON :=
  createObject.addItemToObject (keyOf ['p', 'a', 'r', 'a', 'm', 's'])
    (some (createObject.addItemToObject (keyOf ['a']) (some (createNumber 1))))

theorem coherent_oneParam : oneParam.Coherent := by
  have one : InIntRange 1 := inIntRange_intCast 1
  refine coherent_createObject.addItemToObject (fun _ => ?_) _
  rintro params ⟨rfl⟩
  refine coherent_createObject.addItemToObject (fun _ => ?_) _
  rintro number ⟨rfl⟩
  exact coherent_createNumber one

/-- An attribute is added, set again, and a parameter is added. -/
theorem coherent_along_new_param :
    TransitionSystem.Along treeStep
      (fun item => item.Coherent ∧ item.GettersAgree) oneParam
      [.setInt (ascii ['n']) 2, .setInt (ascii ['n']) 3,
        .addParamsDouble [(ascii ['b'], 5)]] := by
  refine coherent_along coherent_oneParam ?_
  refine ⟨?_, fun next stepped => ?_⟩
  · intro index found finds
    cases finds
  · obtain rfl := Option.some.inj stepped
    refine ⟨?_, fun next stepped => ?_⟩
    · intro index found finds
      cases finds
      exact .inl ⟨rfl, by decide⟩
    · obtain rfl := Option.some.inj stepped
      refine ⟨fun _ => ⟨fun _ => ⟨fun _ => ?_, ?_⟩, fun _ _ => trivial⟩, fun _ _ => trivial⟩
      · exact inIntRange_intCast 5
      · intro member found
        cases found

/-- A parameter that is there has its double set and keeps its integer. -/
theorem not_coherent_along_old_param :
    ¬ TransitionSystem.Along treeStep
      (fun item => item.Coherent ∧ item.GettersAgree) oneParam
      [.addParamsDouble [(ascii ['a'], 7)]] := by
  intro along
  obtain ⟨coherent, -⟩ := along.2 _ rfl
  have params := coherent.of_mem_child (.inr rfl) List.mem_cons_self
  have number := params.of_mem_child (.inr rfl) List.mem_cons_self
  have agree := number.node rfl
  revert agree
  decide

end CJSON
end ProtobufSandbox
