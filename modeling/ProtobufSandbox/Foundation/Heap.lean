import Mathlib.Data.List.Nodup
import Mathlib.Data.Option.Basic
import Mathlib.Logic.Function.Basic
import ProtobufSandbox.Foundation.Cells
import ProtobufSandbox.Foundation.Outcome

/-!
# Blocks of memory

A heap answers requests for blocks, and it may refuse any of them. What a
computation may use are the blocks that it owns: a specification says which
blocks these are before and after it, and every other block keeps its contents.
-/

namespace ProtobufSandbox

/-- The name of a block: the number of the request that it was the answer to. -/
abbrev Block := Nat

/-- The contents of the blocks that are in use. No name is used twice. -/
structure Heap (α : Type) where
  requests : Nat
  contents : Block → Option α
  unrequested : ∀ block, requests ≤ block → contents block = none

namespace Heap

variable {α β γ ε : Type}

/-- The heap before the first request. -/
def empty : Heap α where
  requests := 0
  contents := fun _ => none
  unrequested := fun _ _ => rfl

/-- A request and the answer to it. -/
def answer (heap : Heap α) (new : Option α) : Heap α where
  requests := heap.requests + 1
  contents := Function.update heap.contents heap.requests new
  unrequested := by
    intro block later
    rw [Function.update_of_ne (Nat.ne_of_gt later)]
    exact heap.unrequested block (Nat.le_of_succ_le later)

/-- A block that was requested before gets other contents. -/
def update
    (heap : Heap α)
    (block : Block)
    (requested : heap.contents block ≠ none)
    (new : Option α) : Heap α where
  requests := heap.requests
  contents := Function.update heap.contents block new
  unrequested := by
    intro other later
    have different : other ≠ block := by
      rintro rfl
      exact requested (heap.unrequested other later)
    rw [Function.update_of_ne different]
    exact heap.unrequested other later

/-- A computation on a heap that can fail. -/
abbrev Action (α ε β : Type) := StateT (Heap α) (Except ε) β

/-- `malloc`: a new block with these contents, if the request is granted. -/
def malloc (granted : Nat → Bool) (new : α) : Action α ε (Option Block) :=
  fun heap =>
    if granted heap.requests then .ok (some heap.requests, heap.answer (some new))
    else .ok (none, heap.answer none)

/-- The contents of a block, or an error if it is not in use. -/
def load (unused : ε) (block : Block) : Action α ε α :=
  fun heap =>
    match heap.contents block with
    | none => .error unused
    | some contents => .ok (contents, heap)

/-- New contents for a block that is in use. -/
def store (unused : ε) (block : Block) (new : α) : Action α ε Unit :=
  fun heap =>
    if used : heap.contents block ≠ none then
      .ok ((), heap.update block used (some new))
    else .error unused

/-- `free`. -/
def free (unused : ε) (block : Block) : Action α ε Unit :=
  fun heap =>
    if used : heap.contents block ≠ none then
      .ok ((), heap.update block used none)
    else .error unused

/-- An error that does not depend on the heap. -/
def fail (error : ε) : Action α ε β :=
  fun _ => .error error

/-! ## Ownership -/

/-- These are the blocks in use, each with its contents. -/
structure Holds (blocks : List (Block × α)) (heap : Heap α) : Prop
    extends Cells.Describes blocks heap.contents

section Holds

variable {blocks other : List (Block × α)} {heap after : Heap α}

/-- Only finitely many blocks are in use. -/
theorem exists_holds (heap : Heap α) : ∃ blocks, Holds blocks heap := by
  let entry (block : Block) : Option (Block × α) :=
    (heap.contents block).map fun contents => (block, contents)
  have named {block : Block} {listed : Block × α}
      (found : entry block = some listed) : block = listed.1 := by
    obtain ⟨contents, -, rfl⟩ := Option.map_eq_some_iff.mp found
    rfl
  refine ⟨(List.range heap.requests).filterMap entry, ?_, ?_⟩
  · rw [List.map_filterMap]
    apply List.nodup_range.filterMap
    intro first second block firstBlock secondBlock
    obtain ⟨listed, found, rfl⟩ := Option.map_eq_some_iff.mp firstBlock
    obtain ⟨listed', found', equal⟩ := Option.map_eq_some_iff.mp secondBlock
    rw [named found, named found', equal]
  · intro block contents
    constructor
    · intro present
      obtain ⟨block', -, found⟩ := List.mem_filterMap.mp present
      obtain rfl := named found
      obtain ⟨contents', used, equal⟩ := Option.map_eq_some_iff.mp found
      cases equal
      exact used
    · intro used
      have requested : block < heap.requests := by
        by_contra later
        have unused := heap.unrequested block (Nat.le_of_not_lt later)
        rw [unused] at used
        cases used
      refine List.mem_filterMap.mpr ⟨block, List.mem_range.mpr requested, ?_⟩
      exact Option.map_eq_some_iff.mpr ⟨contents, used, rfl⟩

theorem Holds.perm
    (holds : Holds blocks heap)
    (same : blocks.Perm other) :
    Holds other heap :=
  ⟨holds.toDescribes.perm same⟩

theorem Holds.contents_head
    {block : Block}
    {contents : α}
    (holds : Holds ((block, contents) :: blocks) heap) :
    heap.contents block = some contents :=
  holds.toDescribes.head

/-- The next request is for a block that is not in use. -/
theorem contents_requests (heap : Heap α) : heap.contents heap.requests = none :=
  heap.unrequested heap.requests (Nat.le_refl _)

/-- A block that is new in use. -/
theorem Holds.answer_some
    (holds : Holds blocks heap)
    (new : α) :
    Holds ((heap.requests, new) :: blocks) (heap.answer (some new)) :=
  ⟨holds.toDescribes.insert heap.contents_requests new⟩

theorem Holds.answer_none (holds : Holds blocks heap) :
    Holds blocks (heap.answer none) := by
  have same : (heap.answer none).contents = heap.contents := by
    rw [answer, Function.update_eq_self_iff, heap.contents_requests]
  exact ⟨same ▸ holds.toDescribes⟩

theorem Holds.update_some
    {block : Block}
    {contents : α}
    (holds : Holds ((block, contents) :: blocks) heap)
    (used : heap.contents block ≠ none)
    (new : α) :
    Holds ((block, new) :: blocks) (heap.update block used (some new)) :=
  ⟨holds.toDescribes.replace new⟩

theorem Holds.update_none
    {block : Block}
    {contents : α}
    (holds : Holds ((block, contents) :: blocks) heap)
    (used : heap.contents block ≠ none) :
    Holds blocks (heap.update block used none) :=
  ⟨holds.toDescribes.erase⟩

end Holds

/-- One heap has these blocks in use in addition to those of the other. -/
structure Gains (owned : List (Block × α)) (heap after : Heap α) : Prop where
  distinct : (owned.map Prod.fst).Nodup
  unused : ∀ entry ∈ owned, heap.contents entry.1 = none
  used : ∀ entry ∈ owned, after.contents entry.1 = some entry.2
  others : ∀ block ∉ owned.map Prod.fst, after.contents block = heap.contents block

section Gains

variable {owned rest : List (Block × α)} {heap after : Heap α}

theorem gains_nil (heap : Heap α) : Gains [] heap heap where
  distinct := List.nodup_nil
  unused := fun _ present => absurd present List.not_mem_nil
  used := fun _ present => absurd present List.not_mem_nil
  others := fun _ _ => rfl

theorem Gains.perm
    {other : List (Block × α)}
    (gains : Gains owned heap after)
    (same : owned.Perm other) :
    Gains other heap after where
  distinct := (same.map Prod.fst).nodup_iff.mp gains.distinct
  unused := fun entry present => gains.unused entry (same.mem_iff.mpr present)
  used := fun entry present => gains.used entry (same.mem_iff.mpr present)
  others := fun block absent =>
    gains.others block fun present => absent ((same.map Prod.fst).mem_iff.mp present)

theorem Gains.contents_of_nil (gains : Gains [] heap after) :
    after.contents = heap.contents := by
  funext block
  exact gains.others block List.not_mem_nil

theorem Gains.contents_of_singleton
    {block : Block}
    {contents : α}
    (gains : Gains [(block, contents)] heap after) :
    after.contents = Function.update heap.contents block (some contents) := by
  funext other
  rcases eq_or_ne other block with rfl | different
  · rw [Function.update_self]
    exact gains.used _ List.mem_cons_self
  · rw [Function.update_of_ne different]
    apply gains.others
    rw [List.map_cons, List.map_nil, List.mem_singleton]
    exact different

theorem gains_singleton
    {block : Block}
    {contents : α}
    (new : heap.contents block = none)
    (updated : after.contents = Function.update heap.contents block (some contents)) :
    Gains [(block, contents)] heap after where
  distinct := List.nodup_singleton block
  unused := List.forall_mem_singleton.mpr new
  used := List.forall_mem_singleton.mpr (updated ▸ Function.update_self ..)
  others := fun other absent => by
    rw [updated, Function.update_of_ne (List.ne_of_not_mem_cons absent)]

theorem Holds.gains
    (holds : Holds rest heap)
    (holdsAfter : Holds (owned ++ rest) after) :
    Gains owned heap after := by
  have distinct := holdsAfter.distinct
  rw [List.map_append] at distinct
  have apart := List.disjoint_of_nodup_append distinct
  refine ⟨distinct.of_append_left, ?_, ?_, ?_⟩
  · intro entry present
    rw [Option.eq_none_iff_forall_ne_some]
    intro contents inUse
    have among := (holds.mem_iff entry.1 contents).mpr inUse
    exact apart (List.mem_map_of_mem present) (List.mem_map.mpr ⟨_, among, rfl⟩)
  · intro entry present
    exact (holdsAfter.mem_iff entry.1 entry.2).mp (List.mem_append_left rest present)
  · intro block absent
    apply Option.ext
    intro contents
    have notOwned : (block, contents) ∉ owned :=
      fun present => absent (List.mem_map_of_mem present)
    rw [← holds.mem_iff, ← holdsAfter.mem_iff, List.mem_append]
    exact or_iff_right notOwned

theorem Gains.holds
    (gains : Gains owned heap after)
    (holds : Holds rest heap) :
    Holds (owned ++ rest) after := by
  refine ⟨?_, ?_⟩
  · rw [List.map_append]
    refine gains.distinct.append holds.distinct ?_
    intro block inOwned inRest
    obtain ⟨entry, present, rfl⟩ := List.mem_map.mp inOwned
    obtain ⟨other, among, same⟩ := List.mem_map.mp inRest
    have inUse := (holds.mem_iff other.1 other.2).mp among
    rw [same, gains.unused entry present] at inUse
    cases inUse
  · intro block contents
    rw [List.mem_append]
    by_cases inOwned : block ∈ owned.map Prod.fst
    · obtain ⟨entry, present, rfl⟩ := List.mem_map.mp inOwned
      have unused := gains.unused entry present
      constructor
      · rintro (listed | among)
        · exact gains.used _ listed
        · cases unused.symm.trans ((holds.mem_iff entry.1 contents).mp among)
      · intro inUse
        rw [gains.used entry present] at inUse
        cases inUse
        exact .inl present
    · have notOwned : (block, contents) ∉ owned :=
        fun present => inOwned (List.mem_map_of_mem present)
      rw [gains.others block inOwned, ← holds.mem_iff]
      exact or_iff_right notOwned

end Gains

/-! ## Specifications -/

/-- From the owned blocks, whatever else is in use, the computation comes to a
result and to the blocks owned with it, or to an allowed error. -/
def Spec
    (allowed : ε → Prop)
    (owned : List (Block × α))
    (action : Action α ε β)
    (post : β → List (Block × α) → Prop) : Prop :=
  ∀ rest heap, Holds (owned ++ rest) heap →
    Outcome.Meets allowed
      (fun out => ∃ owned', post out.1 owned' ∧ Holds (owned' ++ rest) out.2)
      (action heap)

section Rules

variable {allowed : ε → Prop} {owned others : List (Block × α)}
variable {action : Action α ε β} {post post' : β → List (Block × α) → Prop}

theorem Spec.mono
    (spec : Spec allowed owned action post)
    (implies : ∀ result owned', post result owned' → post' result owned') :
    Spec allowed owned action post' := by
  intro rest heap holds
  refine (spec rest heap holds).mono fun out reached => ?_
  obtain ⟨owned', met, holdsAfter⟩ := reached
  exact ⟨owned', implies out.1 owned' met, holdsAfter⟩

/-- The order of the owned blocks does not matter. -/
theorem Spec.perm
    (spec : Spec allowed owned action post)
    (same : others.Perm owned) :
    Spec allowed others action post :=
  fun rest heap holds => spec rest heap (holds.perm (same.append_right rest))

/-- Blocks that the computation does not need keep their contents. -/
theorem Spec.frame
    (spec : Spec allowed owned action post)
    (others : List (Block × α)) :
    Spec allowed (owned ++ others) action
      fun result owned' => ∃ own, post result own ∧ owned' = own ++ others := by
  intro rest heap holds
  rw [List.append_assoc] at holds
  refine (spec (others ++ rest) heap holds).mono fun out reached => ?_
  obtain ⟨own, met, holdsAfter⟩ := reached
  refine ⟨own ++ others, ⟨own, met, rfl⟩, ?_⟩
  rw [List.append_assoc]
  exact holdsAfter

theorem Spec.pure
    {result : β}
    (met : post result owned) :
    Spec allowed owned (Pure.pure result : Action α ε β) post :=
  fun _ _ holds => ⟨owned, met, holds⟩

theorem Spec.bind
    {next : β → Action α ε γ}
    {middle : β → List (Block × α) → Prop}
    {final : γ → List (Block × α) → Prop}
    (spec : Spec allowed owned action middle)
    (nextSpec : ∀ result owned', middle result owned' →
      Spec allowed owned' (next result) final) :
    Spec allowed owned (action >>= next) final := by
  intro rest heap holds
  refine (spec rest heap holds).bind fun out reached => ?_
  obtain ⟨owned', met, holdsAfter⟩ := reached
  exact nextSpec out.1 owned' met rest out.2 holdsAfter

/-- A part that needs some of the blocks only, and then the rest. -/
theorem Spec.bind_frame
    {next : β → Action α ε γ}
    {middle : β → List (Block × α) → Prop}
    {final : γ → List (Block × α) → Prop}
    (spec : Spec allowed owned action middle)
    (nextSpec : ∀ result owned', middle result owned' →
      Spec allowed (owned' ++ others) (next result) final) :
    Spec allowed (owned ++ others) (action >>= next) final := by
  apply (spec.frame others).bind
  rintro result owned' ⟨own, met, rfl⟩
  exact nextSpec result own met

/-- A part that starts without blocks of its own. -/
theorem Spec.bind_new
    {next : β → Action α ε γ}
    {middle : β → List (Block × α) → Prop}
    {final : γ → List (Block × α) → Prop}
    (spec : Spec allowed [] action middle)
    (nextSpec : ∀ result own, middle result own →
      Spec allowed (own ++ others) (next result) final) :
    Spec allowed others (action >>= next) final := by
  rw [← List.nil_append others]
  exact spec.bind_frame nextSpec

theorem Spec.ite
    {test : Prop}
    [Decidable test]
    {other : Action α ε β}
    (first : test → Spec allowed owned action post)
    (second : ¬ test → Spec allowed owned other post) :
    Spec allowed owned (if test then action else other) post := by
  split
  · next holds => exact first holds
  · next fails => exact second fails

/-- An error that is allowed. -/
theorem Spec.fail
    {error : ε}
    (isAllowed : allowed error) :
    Spec allowed owned (Heap.fail error : Action α ε β) post :=
  fun _ _ _ => isAllowed

variable {granted : Nat → Bool} {unused : ε} {block : Block} {contents new : α}

/-- Either the new block is owned, or a request was refused and nothing is. -/
theorem malloc_spec :
    Spec allowed [] (malloc granted new : Action α ε (Option Block))
      fun result owned =>
        (result = none ∧ owned = [] ∧ ∃ request, granted request = false) ∨
          ∃ block, result = some block ∧ owned = [(block, new)] := by
  intro rest heap holds
  rw [malloc]
  split
  · exact ⟨_, .inr ⟨heap.requests, rfl, rfl⟩, holds.answer_some new⟩
  · next refused =>
      have refused : granted heap.requests = false := by simpa using refused
      exact ⟨[], .inl ⟨rfl, rfl, heap.requests, refused⟩, holds.answer_none⟩

theorem load_spec :
    Spec allowed [(block, contents)] (load unused block : Action α ε α)
      fun result owned => result = contents ∧ owned = [(block, contents)] := by
  intro rest heap holds
  rw [load, holds.contents_head]
  exact ⟨_, ⟨rfl, rfl⟩, holds⟩

theorem store_spec :
    Spec allowed [(block, contents)] (store unused block new : Action α ε Unit)
      fun _ owned => owned = [(block, new)] := by
  intro rest heap holds
  have used : heap.contents block ≠ none := by
    rw [holds.contents_head]
    exact Option.some_ne_none contents
  rw [store, dif_pos used]
  exact ⟨_, rfl, holds.update_some used new⟩

theorem free_spec :
    Spec allowed [(block, contents)] (free unused block : Action α ε Unit)
      fun _ owned => owned = [] := by
  intro rest heap holds
  have used : heap.contents block ≠ none := by
    rw [holds.contents_head]
    exact Option.some_ne_none contents
  rw [free, dif_pos used]
  exact ⟨[], rfl, holds.update_none used⟩

/-- One of the owned blocks is freed. -/
theorem free_head_spec :
    Spec allowed ((block, contents) :: others)
      (free unused block : Action α ε Unit) fun _ owned => owned = others := by
  apply (free_spec.frame others).mono
  rintro - owned ⟨own, rfl, rfl⟩
  rfl

/-- From a heap that has gained the owned blocks, a computation comes to one that
has gained those owned with its result. -/
theorem Spec.run
    {heap before : Heap α}
    (spec : Spec allowed owned action post)
    (gains : Gains owned heap before) :
    Outcome.Meets allowed
      (fun out => ∃ owned', post out.1 owned' ∧ Gains owned' heap out.2)
      (action before) := by
  obtain ⟨rest, holds⟩ := exists_holds heap
  refine (spec rest before (gains.holds holds)).mono fun out reached => ?_
  obtain ⟨owned', met, holdsAfter⟩ := reached
  exact ⟨owned', met, holds.gains holdsAfter⟩

end Rules

/-! ## Answers to requests -/

/-- One of the requests between the two heaps was refused. -/
def Refused (granted : Nat → Bool) (heap after : Heap α) : Prop :=
  ∃ request, heap.requests ≤ request ∧ request < after.requests ∧ granted request = false

/-- A computation comes to the same with other answers, if those to the requests that it
makes are the same. -/
def OwnAnswers (action : (Nat → Bool) → Action α ε β) : Prop :=
  ∀ granted heap out, action granted heap = .ok out →
    heap.requests ≤ out.2.requests ∧
      ∀ other : Nat → Bool,
        (∀ request, heap.requests ≤ request → request < out.2.requests →
          other request = granted request) →
        action other heap = .ok out

/-- A computation that makes no requests. -/
theorem ownAnswers_of_requests_eq
    {action : Action α ε β}
    (none : ∀ heap out, action heap = .ok out → out.2.requests = heap.requests) :
    OwnAnswers fun _ => action :=
  fun _ heap out ran => ⟨Nat.le_of_eq (none heap out ran).symm, fun _ _ => ran⟩

theorem ownAnswers_pure (value : β) :
    OwnAnswers fun _ => (pure value : Action α ε β) := by
  apply ownAnswers_of_requests_eq
  intro heap out ran
  cases ran
  rfl

theorem ownAnswers_fail (error : ε) :
    OwnAnswers fun _ => (fail error : Action α ε β) := by
  apply ownAnswers_of_requests_eq
  intro heap out ran
  cases ran

theorem ownAnswers_load (unused : ε) (block : Block) :
    OwnAnswers fun _ => (load unused block : Action α ε α) := by
  apply ownAnswers_of_requests_eq
  intro heap out ran
  unfold load at ran
  split at ran <;> cases ran
  rfl

theorem ownAnswers_store (unused : ε) (block : Block) (new : α) :
    OwnAnswers fun _ => (store unused block new : Action α ε Unit) := by
  apply ownAnswers_of_requests_eq
  intro heap out ran
  unfold store at ran
  split at ran <;> cases ran
  rfl

theorem ownAnswers_free (unused : ε) (block : Block) :
    OwnAnswers fun _ => (free unused block : Action α ε Unit) := by
  apply ownAnswers_of_requests_eq
  intro heap out ran
  unfold free at ran
  split at ran <;> cases ran
  rfl

theorem ownAnswers_malloc (new : α) :
    OwnAnswers fun granted => (malloc granted new : Action α ε (Option Block)) := by
  intro granted heap out ran
  have made : out.2.requests = heap.requests + 1 := by
    dsimp only [malloc] at ran
    split at ran <;> cases ran <;> rfl
  refine ⟨made ▸ Nat.le_succ _, fun other same => ?_⟩
  dsimp only [malloc] at ran ⊢
  rw [same heap.requests (Nat.le_refl _) (made ▸ Nat.lt_succ_self _)]
  exact ran

theorem OwnAnswers.bind
    {first : (Nat → Bool) → Action α ε β}
    {next : (Nat → Bool) → β → Action α ε γ}
    (own : OwnAnswers first)
    (ownNext : ∀ value, OwnAnswers fun granted => next granted value) :
    OwnAnswers fun granted => first granted >>= next granted := by
  intro granted heap out ran
  obtain ⟨⟨value, middle⟩, ranFirst, ranNext⟩ := Outcome.bind_eq_ok_iff.mp ran
  obtain ⟨before, sameFirst⟩ := own granted heap _ ranFirst
  obtain ⟨behind, sameNext⟩ := ownNext value granted middle out ranNext
  refine ⟨Nat.le_trans before behind, fun other same => Outcome.bind_eq_ok_iff.mpr
    ⟨_, sameFirst other fun request later earlier => ?_,
      sameNext other fun request later earlier => ?_⟩⟩
  · exact same request later (Nat.lt_of_lt_of_le earlier behind)
  · exact same request (Nat.le_trans before later) earlier

theorem OwnAnswers.ite
    {test : Prop}
    [Decidable test]
    {first second : (Nat → Bool) → Action α ε β}
    (own : OwnAnswers first)
    (ownSecond : OwnAnswers second) :
    OwnAnswers fun granted => if test then first granted else second granted := by
  split
  · exact own
  · exact ownSecond

/-- The answers to some requests, and all others are granted. -/
def answersWithin (granted : Nat → Bool) (heap after : Heap α) (request : Nat) : Bool :=
  if heap.requests ≤ request ∧ request < after.requests then granted request else true

/-- A computation comes to the same if all requests but its own are granted. -/
theorem OwnAnswers.run_within
    {action : (Nat → Bool) → Action α ε β}
    {granted : Nat → Bool}
    {heap : Heap α}
    {out : β × Heap α}
    (own : OwnAnswers action)
    (ran : action granted heap = .ok out) :
    action (answersWithin granted heap out.2) heap = .ok out :=
  (own granted heap out ran).2 _ fun _ later earlier => if_pos ⟨later, earlier⟩

/-- If one of those answers is a refusal, it is one to the computation's own requests. -/
theorem refused_of_within
    {granted : Nat → Bool}
    {heap after : Heap α}
    (refused : ∃ request, answersWithin granted heap after request = false) :
    Refused granted heap after := by
  obtain ⟨request, refused⟩ := refused
  unfold answersWithin at refused
  split at refused
  · next inside => exact ⟨request, inside.1, inside.2, refused⟩
  · cases refused

end Heap
end ProtobufSandbox
