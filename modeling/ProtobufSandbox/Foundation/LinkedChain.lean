import Mathlib.Data.List.Nodup

/-!
# Doubly linked chains

A chain of nodes, each linked to the one before and the one behind it. When a node
is exchanged for a new one by writing the links of its neighbours, what is linked
then is the chain with the new node in its place.
-/

namespace ProtobufSandbox
namespace LinkedChain

variable {α : Type*}

/-- The links of a node. -/
@[ext]
structure Links (α : Type*) where
  prev : Option α
  next : Option α

/-- The nodes next to a place of a chain; `prev` is the one in front of the chain. -/
def neighbours (prev : Option α) (chain : List α) (place : Nat) : Links α where
  prev := if place = 0 then prev else chain[place - 1]?
  next := chain[place + 1]?

/-- The nodes of a chain are linked one behind the other, from the first one on. -/
structure Linked
    (links : α → Option (Links α))
    (prev first : Option α)
    (chain : List α) : Prop where
  first : first = chain[0]?
  linked : ∀ {place node}, chain[place]? = some node →
    links node = some (neighbours prev chain place)

/-- A chain without nodes. -/
theorem Linked.nil
    (links : α → Option (Links α))
    (prev : Option α) :
    Linked links prev none [] where
  first := rfl
  linked there := by cases there

/-- A node in front of a chain. -/
theorem Linked.cons
    {links : α → Option (Links α)}
    {prev next : Option α}
    {node : α}
    {chain : List α}
    (there : links node = some ⟨prev, next⟩)
    (behind : Linked links (some node) next chain) :
    Linked links prev (some node) (node :: chain) where
  first := rfl
  linked := by
    intro place other isOther
    cases place with
    | zero =>
        cases isOther
        rw [there, behind.first]
        rfl
    | succ place =>
        rw [behind.linked isOther]
        cases place with
        | zero => rfl
        | succ place => rfl

/-- A chain behind its first node. -/
theorem Linked.uncons
    {links : α → Option (Links α)}
    {prev first : Option α}
    {node : α}
    {chain : List α}
    (linked : Linked links prev first (node :: chain)) :
    first = some node ∧ links node = some ⟨prev, chain[0]?⟩ ∧
      Linked links (some node) chain[0]? chain := by
  refine ⟨linked.first, @Linked.linked _ _ _ _ _ linked 0 node rfl, rfl, ?_⟩
  intro place other isOther
  have behind : (node :: chain)[place + 1]? = some other := isOther
  rw [linked.linked behind]
  cases place with
  | zero => rfl
  | succ place => rfl

/-- A chain stays linked where its nodes keep their links. -/
theorem Linked.congr
    {links after : α → Option (Links α)}
    {prev first : Option α}
    {chain : List α}
    (linked : Linked links prev first chain)
    (same : ∀ node ∈ chain, after node = links node) :
    Linked after prev first chain where
  first := linked.first
  linked there := (same _ (List.mem_of_getElem? there)).trans (linked.linked there)

/-- A node stands at one place of a chain only. -/
theorem place_eq_iff
    {chain : List α}
    {place other : Nat}
    {node : α}
    (distinct : chain.Nodup)
    (there : chain[place]? = some node) :
    chain[other]? = some node ↔ other = place := by
  obtain ⟨inRange, -⟩ := List.getElem?_eq_some_iff.mp there
  rw [← there, eq_comm, List.getElem?_inj inRange distinct, eq_comm]

/-- A node is behind a place if the place is in front of it. -/
theorem next_eq_iff
    {chain : List α}
    {place other : Nat}
    {node : α}
    (distinct : chain.Nodup)
    (there : chain[place]? = some node)
    (prev : Option α) :
    (neighbours prev chain other).next = some node ↔ place = other + 1 := by
  rw [neighbours, place_eq_iff distinct there, eq_comm]

/-- A node is in front of a place if the place is behind it. -/
theorem prev_eq_iff
    {chain : List α}
    {place other : Nat}
    {node : α}
    (distinct : chain.Nodup)
    (there : chain[place]? = some node) :
    (neighbours none chain other).prev = some node ↔ other = place + 1 := by
  unfold neighbours
  cases other with
  | zero => simp
  | succ other =>
      simp only [Nat.add_one_ne_zero, if_false, Nat.add_sub_cancel,
        place_eq_iff distinct there, Nat.add_right_cancel_iff]

/-- Nothing is in front of the first node only. -/
theorem prev_eq_none_iff
    {chain : List α}
    {place : Nat}
    {node : α}
    (there : chain[place]? = some node) :
    (neighbours none chain place).prev = none ↔ place = 0 := by
  obtain ⟨inRange, -⟩ := List.getElem?_eq_some_iff.mp there
  unfold neighbours
  cases place with
  | zero => simp
  | succ place =>
      simp only [Nat.add_one_ne_zero, if_false, Nat.add_sub_cancel, iff_false]
      rw [List.getElem?_eq_none_iff]
      omega

/-- What is in front of a node is a node of the chain. -/
theorem mem_of_prev
    {chain : List α}
    {place : Nat}
    {node : α}
    (front : (neighbours none chain place).prev = some node) :
    node ∈ chain := by
  unfold neighbours at front
  cases place with
  | zero => cases front
  | succ place => exact List.mem_of_getElem? front

/-- The neighbours in a chain with a new node at a place. -/
theorem neighbours_set
    {chain : List α}
    {place : Nat}
    {old : α}
    (there : chain[place]? = some old)
    (new : α)
    (other : Nat) :
    neighbours none (chain.set place new) other =
      ⟨if other = place + 1 then some new else (neighbours none chain other).prev,
        if place = other + 1 then some new else (neighbours none chain other).next⟩ := by
  obtain ⟨inRange, -⟩ := List.getElem?_eq_some_iff.mp there
  unfold neighbours
  rw [Links.mk.injEq]
  constructor
  · cases other with
    | zero => simp
    | succ other =>
        simp only [Nat.add_one_ne_zero, if_false, Nat.add_sub_cancel, List.getElem?_set,
          inRange, if_true, Nat.add_right_cancel_iff, @eq_comm _ other place]
  · simp only [List.getElem?_set, inRange, if_true]

/-- A node is exchanged: the new one takes over its links, and its neighbours link to
the new one. -/
theorem Linked.exchange
    [DecidableEq α]
    {links after : α → Option (Links α)}
    {first : Option α}
    {chain : List α}
    {place : Nat}
    {old new : α}
    (linked : Linked links none first chain)
    (distinct : chain.Nodup)
    (there : chain[place]? = some old)
    (takes : after new = some (neighbours none chain place))
    (others : ∀ node ∈ chain, node ≠ old → after node = (links node).map fun own =>
      ⟨if (neighbours none chain place).next = some node then some new else own.prev,
        if (neighbours none chain place).prev = some node then some new else own.next⟩) :
    Linked after none (chain.set place new)[0]? (chain.set place new) where
  first := rfl
  linked := by
    intro other node isNode
    rw [List.getElem?_set] at isNode
    by_cases same : place = other
    · obtain ⟨inRange, -⟩ := List.getElem?_eq_some_iff.mp there
      rw [if_pos same, if_pos (same ▸ inRange)] at isNode
      cases isNode
      rw [takes, neighbours_set there, ← same]
      simp
    · rw [if_neg same] at isNode
      have apart : node ≠ old := by
        rintro rfl
        exact same ((place_eq_iff distinct isNode).mp there)
      rw [others node (List.mem_of_getElem? isNode) apart, linked.linked isNode,
        neighbours_set there]
      simp only [Option.map_some, next_eq_iff distinct isNode,
        prev_eq_iff distinct isNode]

/-- The neighbours in a chain with a new node at the end. -/
theorem neighbours_concat
    {chain : List α}
    {place : Nat}
    (inRange : place < chain.length)
    (new : α) :
    neighbours none (chain ++ [new]) place =
      ⟨(neighbours none chain place).prev,
        if place + 1 = chain.length then some new
        else (neighbours none chain place).next⟩ := by
  unfold neighbours
  rw [Links.mk.injEq]
  constructor
  · rw [List.getElem?_append_left (Nat.lt_of_le_of_lt (Nat.sub_le place 1) inRange)]
  · by_cases isEnd : place + 1 = chain.length
    · rw [if_pos isEnd, isEnd, List.getElem?_concat_length]
    · rw [if_neg isEnd, List.getElem?_append_left (by omega)]

/-- A node is added at the end: it links to the last one, and the last one to it. -/
theorem Linked.concat
    {links after : α → Option (Links α)}
    {first : Option α}
    {chain : List α}
    {last new : α}
    (linked : Linked links none first chain)
    (distinct : chain.Nodup)
    (isLast : chain.getLast? = some last)
    (newLinks : after new = some ⟨some last, none⟩)
    (lastLinks : after last = (links last).map fun own => ⟨own.prev, some new⟩)
    (others : ∀ node ∈ chain, node ≠ last → after node = links node) :
    Linked after none first (chain ++ [new]) := by
  rw [List.getLast?_eq_getElem?] at isLast
  obtain ⟨notEmpty, -⟩ := List.getElem?_eq_some_iff.mp isLast
  refine ⟨?_, fun {place node} isNode => ?_⟩
  · rw [linked.first, List.getElem?_append_left (by omega)]
  · by_cases inRange : place < chain.length
    · rw [List.getElem?_append_left inRange] at isNode
      rw [neighbours_concat inRange]
      have isEnd : node = last ↔ place + 1 = chain.length := by
        have atEnd := @place_eq_iff _ _ _ (chain.length - 1) _ distinct isNode
        rw [isLast, Option.some.injEq, eq_comm] at atEnd
        rw [atEnd]
        omega
      by_cases same : node = last
      · rw [if_pos (isEnd.mp same), same, lastLinks, ← same, linked.linked isNode,
          Option.map_some]
      · rw [if_neg fun atEnd => same (isEnd.mpr atEnd),
          others node (List.mem_of_getElem? isNode) same, linked.linked isNode]
    · have atEnd : place = chain.length := by
        obtain ⟨bound, -⟩ := List.getElem?_eq_some_iff.mp isNode
        rw [List.length_append, List.length_singleton] at bound
        omega
      subst atEnd
      rw [List.getElem?_concat_length, Option.some.injEq] at isNode
      subst isNode
      have front : (neighbours none (chain ++ [new]) chain.length).prev = some last := by
        unfold neighbours
        rw [if_neg (by omega), List.getElem?_append_left notEmpty, isLast]
      have behind : (neighbours none (chain ++ [new]) chain.length).next = none := by
        apply List.getElem?_eq_none
        exact Nat.le_of_eq (by rw [List.length_append, List.length_singleton])
      rw [newLinks, Option.some.injEq]
      ext1
      · exact front.symm
      · exact behind.symm

end LinkedChain
end ProtobufSandbox
