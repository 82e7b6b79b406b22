import Mathlib.Data.List.Nodup
import Mathlib.Logic.Function.Basic

/-!
# Cells of a memory

A memory that is in use at finitely many keys, described by the list of its cells.
Their order does not matter, so that a part of the memory is a part of the list, and
what is written or freed at the head of the list leaves the rest as it is.
-/

namespace ProtobufSandbox
namespace Cells

variable {κ ν : Type*}

/-- Lists with the same members the same number of times, in whatever order. -/
theorem perm_of_count
    {γ : Type*}
    {first second : List γ}
    (same : ∀ [DecidableEq γ] (entry : γ), first.count entry = second.count entry) :
    first.Perm second := by
  classical
  exact List.perm_iff_count.mpr fun entry => same entry

/-- These are the cells in use, each with its contents. -/
structure Describes (cells : List (κ × ν)) (memory : κ → Option ν) : Prop where
  distinct : (cells.map Prod.fst).Nodup
  mem_iff : ∀ key contents, (key, contents) ∈ cells ↔ memory key = some contents

section Describes

variable {cells other : List (κ × ν)} {memory after : κ → Option ν}
variable {key : κ} {contents : ν}

theorem describes_nil : Describes [] fun _ : κ => (none : Option ν) where
  distinct := List.nodup_nil
  mem_iff := by
    intro key contents
    simp

theorem Describes.perm
    (describes : Describes cells memory)
    (same : cells.Perm other) :
    Describes other memory where
  distinct := (same.map Prod.fst).nodup_iff.mp describes.distinct
  mem_iff := by
    intro key contents
    rw [← same.mem_iff]
    exact describes.mem_iff key contents

theorem Describes.head (describes : Describes ((key, contents) :: cells) memory) :
    memory key = some contents :=
  (describes.mem_iff key contents).mp List.mem_cons_self

/-- The other cells have other keys. -/
theorem Describes.ne_head
    (describes : Describes ((key, contents) :: cells) memory)
    {cell : κ × ν}
    (present : cell ∈ cells) :
    cell.1 ≠ key := by
  intro same
  apply (List.nodup_cons.mp describes.distinct).1
  exact List.mem_map.mpr ⟨cell, present, same⟩

section Update

variable [DecidableEq κ]

/-- A cell that is new in use. -/
theorem Describes.insert
    (describes : Describes cells memory)
    (unused : memory key = none)
    (new : ν) :
    Describes ((key, new) :: cells) (Function.update memory key (some new)) := by
  refine ⟨List.nodup_cons.mpr ⟨?_, describes.distinct⟩, ?_⟩
  · intro present
    obtain ⟨cell, among, same⟩ := List.mem_map.mp present
    have used := (describes.mem_iff cell.1 cell.2).mp among
    rw [same] at used
    cases unused.symm.trans used
  · intro key' contents'
    rw [List.mem_cons, describes.mem_iff]
    rcases eq_or_ne key' key with rfl | different
    · simp [unused, eq_comm]
    · simp [different]

/-- The first cell gets other contents. -/
theorem Describes.replace
    (describes : Describes ((key, contents) :: cells) memory)
    (new : ν) :
    Describes ((key, new) :: cells) (Function.update memory key (some new)) := by
  refine ⟨describes.distinct, ?_⟩
  intro key' contents'
  rw [List.mem_cons]
  rcases eq_or_ne key' key with rfl | different
  · have absent : (key', contents') ∉ cells :=
      fun present => describes.ne_head present rfl
    simp [absent, eq_comm]
  · have before := describes.mem_iff key' contents'
    simp only [List.mem_cons, Prod.mk.injEq, different, false_and,
      false_or] at before
    simp [different, before]

/-- The first cell is not in use any more. -/
theorem Describes.erase
    (describes : Describes ((key, contents) :: cells) memory) :
    Describes cells (Function.update memory key none) := by
  refine ⟨(List.nodup_cons.mp describes.distinct).2, ?_⟩
  intro key' contents'
  rcases eq_or_ne key' key with rfl | different
  · have absent : (key', contents') ∉ cells :=
      fun present => describes.ne_head present rfl
    simp [absent]
  · have before := describes.mem_iff key' contents'
    simp only [List.mem_cons, Prod.mk.injEq, different, false_and,
      false_or] at before
    simp [different, before]

/-- Some cells are not in use any more, and nothing else has changed. -/
theorem Describes.erase_append
    (describes : Describes (other ++ cells) memory)
    (erased : ∀ key, after key =
      if key ∈ other.map Prod.fst then none else memory key) :
    Describes cells after := by
  have distinct := describes.distinct
  rw [List.map_append] at distinct
  have apart := List.disjoint_of_nodup_append distinct
  refine ⟨distinct.of_append_right, ?_⟩
  intro key contents
  rw [erased]
  by_cases isErased : key ∈ other.map Prod.fst
  · rw [if_pos isErased]
    refine iff_of_false (fun present => ?_) (Option.some_ne_none contents).symm
    exact apart isErased (List.mem_map_of_mem present)
  · rw [if_neg isErased, ← describes.mem_iff, List.mem_append]
    refine (or_iff_right fun present => ?_).symm
    exact isErased (List.mem_map_of_mem present)

end Update
end Describes

end Cells
end ProtobufSandbox
