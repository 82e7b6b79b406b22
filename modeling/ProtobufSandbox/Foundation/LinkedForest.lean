import Mathlib.Data.List.Nodup
import Mathlib.Data.List.Perm.Basic

/-!
# Linked trees

Trees whose items lie at addresses and are linked: an item to its first child, and to
the items in front of it and behind it in the chain that it belongs to. The cells of a
tree are what a memory holds for it. A chain can be cut anywhere, and the children of
any one item can be set apart from the cells of everything else.
-/

namespace ProtobufSandbox
namespace LinkedForest

variable {α β ν : Type*}

/-- The pointers of an item. -/
structure Links (α : Type*) where
  prev : Option α
  next : Option α
  child : Option α

/-- A tree with the address of each of its items. -/
structure Tree (α β : Type*) where
  address : α
  data : β
  child : List (Tree α β)

/-- The first item of a chain, or what is behind the chain. -/
def entry (next : Option α) : List (Tree α β) → Option α
  | [] => next
  | tree :: _ => some tree.address

/-- The last item of a chain, or what is in front of the chain. -/
def exit (prev : Option α) : List (Tree α β) → Option α
  | [] => prev
  | tree :: trees => exit (some tree.address) trees

@[simp] theorem entry_nil (next : Option α) :
    entry next ([] : List (Tree α β)) = next := rfl

@[simp] theorem entry_cons
    (next : Option α)
    (tree : Tree α β)
    (trees : List (Tree α β)) :
    entry next (tree :: trees) = some tree.address := rfl

@[simp] theorem exit_nil (prev : Option α) :
    exit prev ([] : List (Tree α β)) = prev := rfl

@[simp] theorem exit_cons
    (prev : Option α)
    (tree : Tree α β)
    (trees : List (Tree α β)) :
    exit prev (tree :: trees) = exit (some tree.address) trees := rfl

@[simp] theorem entry_append (next : Option α) (before behind : List (Tree α β)) :
    entry next (before ++ behind) = entry (entry next behind) before := by
  cases before with
  | nil => rfl
  | cons tree before => rfl

@[simp] theorem exit_append (prev : Option α) (before behind : List (Tree α β)) :
    exit prev (before ++ behind) = exit (exit prev before) behind := by
  induction before generalizing prev with
  | nil => rfl
  | cons tree before inductionHypothesis => exact inductionHypothesis (some tree.address)

/-- Only a chain without items has none in front of its end. -/
theorem exit_eq_none_iff {trees : List (Tree α β)} : exit none trees = none ↔ trees = [] := by
  rcases List.eq_nil_or_concat trees with rfl | ⟨before, tree, rfl⟩
  · exact iff_of_true rfl rfl
  · rw [List.concat_eq_append, exit_append]
    refine iff_of_false (Option.some_ne_none tree.address) ?_
    exact List.append_ne_nil_of_right_ne_nil before (List.cons_ne_nil tree [])

/-! ## Cells -/

section Cells

variable (node : β → Links α → ν)

mutual

/-- The cells of a tree whose root has these neighbours. -/
def cells (prev next : Option α) : Tree α β → List (α × ν)
  | ⟨address, data, child⟩ =>
      (address, node data ⟨prev, next, entry none child⟩) :: segment none none child

/-- The cells of the trees in a part of a chain, between these neighbours. -/
def segment (prev next : Option α) : List (Tree α β) → List (α × ν)
  | [] => []
  | tree :: trees =>
      cells prev (entry next trees) tree ++ segment (some tree.address) next trees

end

/-- The cells of trees that are linked to nothing. -/
def rootCells (trees : List (Tree α β)) : List (α × ν) :=
  trees.flatMap (cells node none none)

variable (prev next : Option α)

theorem cells_eq (tree : Tree α β) :
    cells node prev next tree =
      (tree.address, node tree.data ⟨prev, next, entry none tree.child⟩) ::
        segment node none none tree.child := by
  cases tree
  rw [cells]

@[simp] theorem segment_nil : segment node prev next [] = [] := by
  rw [segment]

@[simp] theorem segment_cons (tree : Tree α β) (trees : List (Tree α β)) :
    segment node prev next (tree :: trees) =
      cells node prev (entry next trees) tree ++
        segment node (some tree.address) next trees := by
  rw [segment]

/-- A chain that is cut: the items next to the cut are the neighbours of the parts. -/
theorem segment_append (before behind : List (Tree α β)) :
    segment node prev next (before ++ behind) =
      segment node prev (entry next behind) before ++
        segment node (exit prev before) next behind := by
  induction before generalizing prev with
  | nil => rw [List.nil_append, segment_nil, List.nil_append, exit_nil]
  | cons tree before inductionHypothesis =>
      rw [List.cons_append, segment_cons, segment_cons, inductionHypothesis, entry_append,
        exit_cons, List.append_assoc]

/-- There is a cell for each item of a chain. -/
theorem length_le_segment (trees : List (Tree α β)) :
    trees.length ≤ (segment node prev next trees).length := by
  induction trees generalizing prev with
  | nil => exact Nat.le_of_eq (by rw [segment_nil, List.length_nil, List.length_nil])
  | cons tree trees inductionHypothesis =>
      have behind := inductionHypothesis (some tree.address)
      rw [segment_cons, cells_eq, List.length_append, List.length_cons, List.length_cons]
      omega

/-- The last item of a chain, with what does not depend on the item behind it. -/
theorem segment_concat_perm (before : List (Tree α β)) (tree : Tree α β) :
    (segment node prev next (before ++ [tree])).Perm
      ((tree.address, node tree.data ⟨exit prev before, next, entry none tree.child⟩) ::
        (segment node none none tree.child ++
          segment node prev (some tree.address) before)) := by
  rw [segment_append, segment_cons, segment_nil, List.append_nil, entry_cons, entry_nil,
    cells_eq]
  exact List.perm_append_comm

@[simp] theorem rootCells_nil : rootCells node ([] : List (Tree α β)) = [] := rfl

@[simp] theorem rootCells_cons (tree : Tree α β) (trees : List (Tree α β)) :
    rootCells node (tree :: trees) = cells node none none tree ++ rootCells node trees :=
  List.flatMap_cons

theorem rootCells_perm {trees others : List (Tree α β)} (same : trees.Perm others) :
    (rootCells node trees).Perm (rootCells node others) :=
  same.flatMap_right _

end Cells

/-! ## Items anywhere in a tree -/

section Find

variable [DecidableEq α] (address : α) (change : List (Tree α β) → List (Tree α β))

mutual

/-- The tree below an item. -/
def Tree.find : Tree α β → Option (Tree α β)
  | ⟨own, data, child⟩ =>
      if own = address then some ⟨own, data, child⟩ else find child

/-- The tree below an item of one of the trees. -/
def find : List (Tree α β) → Option (Tree α β)
  | [] => none
  | tree :: trees => (tree.find).or (find trees)

end

mutual

/-- The tree with other children for an item. -/
def Tree.graft : Tree α β → Tree α β
  | ⟨own, data, child⟩ =>
      if own = address then ⟨own, data, change child⟩ else ⟨own, data, graft child⟩

/-- The trees with other children for an item of one of them. -/
def graft : List (Tree α β) → List (Tree α β)
  | [] => []
  | tree :: trees =>
      if (tree.find address).isSome then tree.graft :: trees else tree :: graft trees

end

variable {address change}

theorem Tree.graft_address (tree : Tree α β) :
    (tree.graft address change).address = tree.address := by
  cases tree
  rw [Tree.graft]
  split <;> rfl

@[simp] theorem entry_graft (next : Option α) (trees : List (Tree α β)) :
    entry next (graft address change trees) = entry next trees := by
  cases trees with
  | nil => rw [graft]
  | cons tree trees =>
      rw [graft]
      split
      · rw [entry_cons, entry_cons, tree.graft_address]
      · rfl

mutual

theorem Tree.find_address
    (tree : Tree α β)
    {item : Tree α β}
    (found : tree.find address = some item) :
    item.address = address := by
  obtain ⟨own, data, child⟩ := tree
  rw [Tree.find] at found
  split at found
  · next here =>
      obtain rfl := Option.some.inj found
      exact here
  · exact find_address child found

/-- What is found lies at the address. -/
theorem find_address
    (trees : List (Tree α β))
    {item : Tree α β}
    (found : find address trees = some item) :
    item.address = address := by
  cases trees with
  | nil =>
      rw [find] at found
      cases found
  | cons tree trees =>
      rw [find, Option.or_eq_some_iff] at found
      rcases found with first | ⟨-, later⟩
      · exact tree.find_address first
      · exact find_address trees later

end

mutual

theorem Tree.graft_id (tree : Tree α β) : tree.graft address id = tree := by
  obtain ⟨own, data, child⟩ := tree
  rw [Tree.graft, graft_id child, id_eq, ite_self]

/-- An item that keeps its children. -/
theorem graft_id (trees : List (Tree α β)) : graft address id trees = trees := by
  cases trees with
  | nil => rw [graft]
  | cons tree trees => rw [graft, tree.graft_id, graft_id trees, ite_self]

end

mutual

theorem Tree.find_graft
    (tree : Tree α β)
    {item : Tree α β}
    (found : tree.find address = some item) :
    (tree.graft address change).find address =
      some ⟨address, item.data, change item.child⟩ := by
  obtain ⟨own, data, child⟩ := tree
  rw [Tree.find] at found
  rw [Tree.graft]
  split at found
  · next here =>
      obtain rfl := Option.some.inj found
      rw [if_pos here, Tree.find, if_pos here, here]
  · next elsewhere =>
      rw [if_neg elsewhere, Tree.find, if_neg elsewhere]
      exact find_graft child found

/-- The item that got other children is found with these. -/
theorem find_graft
    (trees : List (Tree α β))
    {item : Tree α β}
    (found : find address trees = some item) :
    find address (graft address change trees) =
      some ⟨address, item.data, change item.child⟩ := by
  cases trees with
  | nil =>
      rw [find] at found
      cases found
  | cons tree trees =>
      rw [find, Option.or_eq_some_iff] at found
      rw [graft]
      rcases found with first | ⟨missing, later⟩
      · rw [if_pos (Option.isSome_of_mem first), find, tree.find_graft first, Option.some_or]
      · have absent : ¬ (tree.find address).isSome := by simp [missing]
        rw [if_neg absent, find, missing, Option.none_or]
        exact find_graft trees later

end

section Context

variable (node : β → Links α → ν) {item : Tree α β}

mutual

theorem Tree.exists_context
    (tree : Tree α β)
    (found : tree.find address = some item)
    (prev next : Option α) :
    ∃ front behind rest, ∀ change : List (Tree α β) → List (Tree α β),
      (cells node prev next (tree.graft address change)).Perm
        ((address, node item.data ⟨front, behind, entry none (change item.child)⟩) ::
          (segment node none none (change item.child) ++ rest)) := by
  obtain ⟨own, data, child⟩ := tree
  rw [Tree.find] at found
  split at found
  · next here =>
      obtain rfl := Option.some.inj found
      refine ⟨prev, next, [], fun change => ?_⟩
      rw [Tree.graft, if_pos here, cells_eq, List.append_nil, here]
  · next elsewhere =>
      obtain ⟨front, behind, rest, context⟩ := exists_context child found none none
      refine ⟨front, behind, (own, node data ⟨prev, next, entry none child⟩) :: rest,
        fun change => ?_⟩
      rw [Tree.graft, if_neg elsewhere, cells_eq, entry_graft]
      refine ((context change).cons _).trans ((List.Perm.swap _ _ _).trans ?_)
      exact List.perm_middle.symm.cons _

/-- Nothing but the children of an item depends on them, and the pointer to the first of
these. -/
theorem exists_context
    (trees : List (Tree α β))
    (found : find address trees = some item)
    (prev next : Option α) :
    ∃ front behind rest, ∀ change : List (Tree α β) → List (Tree α β),
      (segment node prev next (graft address change trees)).Perm
        ((address, node item.data ⟨front, behind, entry none (change item.child)⟩) ::
          (segment node none none (change item.child) ++ rest)) := by
  cases trees with
  | nil =>
      rw [find] at found
      cases found
  | cons tree trees =>
      rw [find, Option.or_eq_some_iff] at found
      rcases found with first | ⟨missing, later⟩
      · obtain ⟨front, behind, rest, context⟩ :=
          tree.exists_context first prev (entry next trees)
        refine ⟨front, behind, rest ++ segment node (some tree.address) next trees,
          fun change => ?_⟩
        rw [graft, if_pos (Option.isSome_of_mem first), segment_cons, tree.graft_address,
          ← List.append_assoc, ← List.cons_append]
        exact (context change).append_right _
      · obtain ⟨front, behind, rest, context⟩ :=
          exists_context trees later (some tree.address) next
        refine ⟨front, behind, cells node prev (entry next trees) tree ++ rest,
          fun change => ?_⟩
        have absent : ¬ (tree.find address).isSome := by simp [missing]
        rw [graft, if_neg absent, segment_cons, entry_graft]
        refine ((context change).append_left _).trans (List.perm_middle.trans ?_)
        refine List.Perm.cons _ ?_
        rw [← List.append_assoc, ← List.append_assoc]
        exact List.perm_append_comm.append_right rest

end

/-- The same where the trees are linked to nothing. -/
theorem exists_rootContext
    (trees : List (Tree α β))
    (found : find address trees = some item) :
    ∃ front behind rest, ∀ change : List (Tree α β) → List (Tree α β),
      (rootCells node (graft address change trees)).Perm
        ((address, node item.data ⟨front, behind, entry none (change item.child)⟩) ::
          (segment node none none (change item.child) ++ rest)) := by
  induction trees with
  | nil =>
      rw [find] at found
      cases found
  | cons tree trees inductionHypothesis =>
      rw [find, Option.or_eq_some_iff] at found
      rcases found with first | ⟨missing, later⟩
      · obtain ⟨front, behind, rest, context⟩ :=
          Tree.exists_context node tree first none none
        refine ⟨front, behind, rest ++ rootCells node trees, fun change => ?_⟩
        rw [graft, if_pos (Option.isSome_of_mem first), rootCells_cons,
          ← List.append_assoc, ← List.cons_append]
        exact (context change).append_right _
      · obtain ⟨front, behind, rest, context⟩ := inductionHypothesis later
        refine ⟨front, behind, cells node none none tree ++ rest, fun change => ?_⟩
        have absent : ¬ (tree.find address).isSome := by simp [missing]
        rw [graft, if_neg absent, rootCells_cons]
        refine ((context change).append_left _).trans (List.perm_middle.trans ?_)
        refine List.Perm.cons _ ?_
        rw [← List.append_assoc, ← List.append_assoc]
        exact List.perm_append_comm.append_right rest

end Context
end Find

end LinkedForest
end ProtobufSandbox
