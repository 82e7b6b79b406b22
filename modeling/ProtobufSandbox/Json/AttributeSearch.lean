import Mathlib.Logic.Relation
import ProtobufSandbox.Json.Mutation

/-!
# The search for an attribute

`doesAttributeExist` goes down through arrays and objects. A descendant of an item is
what can be reached from it by going from containers to their entries; the search with
recursion finds exactly the names of the descendants of its root, and the search without
it those of the entries.
-/

namespace ProtobufSandbox
namespace CJSON

/-! ## Descendants -/

/-- The first item is an entry of the second, an array or object. -/
def EntryOf (entry item : CJSON) : Prop :=
  item.IsContainer ∧ entry ∈ item.child

/-- The first item is under the second, through any mix of arrays and objects. -/
def DescendantOf : CJSON → CJSON → Prop :=
  Relation.TransGen EntryOf

/-- The items of a tree are its root and what is under it. -/
theorem mem_nodes_iff
    (item node : CJSON) :
    node ∈ item.nodes ↔ Relation.ReflTransGen EntryOf node item := by
  induction item using CJSON.induction with
  | node item inductionHypothesis =>
      rw [nodes_eq, List.mem_cons, Relation.ReflTransGen.cases_tail_iff]
      apply or_congr eq_comm
      by_cases container : item.IsContainer
      · rw [if_pos container, nodesOf_eq_flatMap, List.mem_flatMap]
        apply exists_congr
        intro entry
        constructor
        · rintro ⟨present, below⟩
          exact ⟨(inductionHypothesis entry present).mp below, container, present⟩
        · rintro ⟨below, -, present⟩
          exact ⟨present, (inductionHypothesis entry present).mpr below⟩
      · rw [if_neg container]
        apply iff_of_false List.not_mem_nil
        rintro ⟨entry, -, isContainer, -⟩
        exact container isContainer

/-- The descendants of a container are the items of the trees of its entries. -/
theorem mem_nodesOf_child_iff
    {item : CJSON}
    (container : item.IsContainer)
    (node : CJSON) :
    node ∈ nodesOf item.child ↔ DescendantOf node item := by
  rw [nodesOf_eq_flatMap, List.mem_flatMap, DescendantOf, Relation.TransGen.tail'_iff]
  apply exists_congr
  intro entry
  rw [mem_nodes_iff, EntryOf, and_comm, and_iff_right container]

/-! ## The search -/

/-- The loop asks each item of the chain. -/
theorem existsIn_eq_any
    (key : Bytes)
    (recurse : Bool)
    (items : List CJSON) :
    existsIn key recurse items = items.any (existsAt key recurse) := by
  induction items with
  | nil => rfl
  | cons item items inductionHypothesis =>
      rw [existsIn, inductionHypothesis, List.any_cons]

/-- With recursion an item has the key, or an item of its tree has it. -/
theorem existsAt_recurse_iff
    {key : Bytes}
    (item : CJSON) :
    existsAt key true item = true ↔
      key ≠ [] ∧ ∃ node ∈ item.nodes, node.name = some key := by
  induction item using CJSON.induction with
  | node item inductionHypothesis =>
      have deeper : existsIn key true item.child = true ↔
          key ≠ [] ∧ ∃ node ∈ nodesOf item.child, node.name = some key := by
        rw [existsIn_eq_any, List.any_eq_true, nodesOf_eq_flatMap]
        constructor
        · rintro ⟨entry, present, found⟩
          obtain ⟨nonEmpty, node, below, named⟩ :=
            (inductionHypothesis entry present).mp found
          exact ⟨nonEmpty, node, List.mem_flatMap.mpr ⟨entry, present, below⟩, named⟩
        · rintro ⟨nonEmpty, node, below, named⟩
          obtain ⟨entry, present, below⟩ := List.mem_flatMap.mp below
          exact ⟨entry, present,
            (inductionHypothesis entry present).mpr ⟨nonEmpty, node, below, named⟩⟩
      rw [existsAt_eq, Bool.or_eq_true, hasKey_iff, Bool.true_and, Bool.and_eq_true,
        decide_eq_true_eq, deeper, nodes_eq]
      by_cases container : item.IsContainer
      · simp only [if_pos container, List.mem_cons, exists_eq_or_imp, and_or_left,
          and_iff_right container]
      · rw [if_neg container, or_iff_left fun below => container below.1]
        simp only [List.mem_singleton, exists_eq_left]

/-- From an array or object the search with recursion finds exactly the names under it,
and the search without it those of the entries. The siblings do not matter. -/
theorem doesAttributeExist_exact
    {root : CJSON}
    (container : root.IsContainer)
    (next : List CJSON)
    {key : Bytes}
    (nonEmpty : key ≠ []) :
    (∃ found, doesAttributeExist (root :: next) key true = .ok found ∧
      (found = true ↔ ∃ node, DescendantOf node root ∧ node.name = some key)) ∧
    ∃ found, doesAttributeExist (root :: next) key false = .ok found ∧
      (found = true ↔ ∃ child ∈ root.child, child.name = some key) := by
  simp only [doesAttributeExist, if_pos container]
  refine ⟨⟨_, rfl, ?_⟩, _, rfl, ?_⟩
  · rw [existsIn_eq_any, List.any_eq_true]
    simp only [existsAt_recurse_iff, and_iff_right nonEmpty,
      ← mem_nodesOf_child_iff container, nodesOf_eq_flatMap, List.mem_flatMap]
    constructor
    · rintro ⟨entry, present, node, below, named⟩
      exact ⟨node, ⟨entry, present, below⟩, named⟩
    · rintro ⟨node, ⟨entry, present, below⟩, named⟩
      exact ⟨entry, present, node, below, named⟩
  · rw [existsIn_iff, and_iff_right nonEmpty, KeyedList.mem_names_iff]

/-- An array that holds an object with a member. -/
theorem doesAttributeExist_exact_nested :
    (∃ found,
      doesAttributeExist
          [{ newItem with
              type := .array
              child := [createObject.addItemToObject (keyOf ['i', 'd']) (some createNull)] },
            createNull]
          (ascii ['i', 'd']) true = .ok found ∧
        (found = true ↔ ∃ node,
          DescendantOf node
              { newItem with
                type := .array
                child :=
                  [createObject.addItemToObject (keyOf ['i', 'd']) (some createNull)] } ∧
            node.name = some (ascii ['i', 'd']))) ∧
      ∃ found,
        doesAttributeExist
            [{ newItem with
                type := .array
                child := [createObject.addItemToObject (keyOf ['i', 'd']) (some createNull)] },
              createNull]
            (ascii ['i', 'd']) false = .ok found ∧
          (found = true ↔
            ∃ child ∈ [createObject.addItemToObject (keyOf ['i', 'd']) (some createNull)],
              child.name = some (ascii ['i', 'd'])) :=
  @doesAttributeExist_exact
    { newItem with
      type := .array
      child := [createObject.addItemToObject (keyOf ['i', 'd']) (some createNull)] }
    (.inl rfl) [createNull] _ (by decide)

end CJSON
end ProtobufSandbox
