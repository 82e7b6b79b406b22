import Mathlib.Data.List.Nodup

/-!
# Lists of named entries

A list whose entries may carry a name, read by the first entry of a name. The
laws say when the names stay distinct, and which names are read as before, when
an entry is written over another one or added at the end.
-/

namespace ProtobufSandbox
namespace KeyedList

section Names

variable {α κ : Type*} {name : α → Option κ}

/-- The names of a list, in order. -/
def names (name : α → Option κ) (items : List α) : List κ :=
  items.filterMap name

/-- The first entry of a name. -/
def lookup
    [DecidableEq κ]
    (name : α → Option κ)
    (key : κ)
    (items : List α) : Option α :=
  items.find? fun item => name item = some key

@[simp] theorem names_append (first second : List α) :
    names name (first ++ second) = names name first ++ names name second :=
  List.filterMap_append

theorem mem_names_iff {items : List α} {key : κ} :
    key ∈ names name items ↔ ∃ item ∈ items, name item = some key :=
  List.mem_filterMap

/-- Writing over an entry of the same name keeps the names. -/
theorem names_set_of_eq
    {items : List α}
    {index : Nat}
    {old new : α}
    (there : items[index]? = some old)
    (same : name new = name old) :
    names name (items.set index new) = names name items := by
  induction items generalizing index with
  | nil => rfl
  | cons item items inductionHypothesis =>
      cases index with
      | zero =>
          obtain rfl : item = old := by simpa using there
          simp [names, List.filterMap_cons, same]
      | succ index =>
          have later : items[index]? = some old := by simpa using there
          have rest := inductionHypothesis later
          unfold names at rest ⊢
          rw [List.set_cons_succ, List.filterMap_cons, List.filterMap_cons, rest]

/-- An entry that is written over splits its list. -/
theorem exists_split
    {items : List α}
    {index : Nat}
    {old : α}
    (there : items[index]? = some old)
    (new : α) :
    ∃ before after, items = before ++ old :: after ∧
      items.set index new = before ++ new :: after ∧
      before.length = index := by
  obtain ⟨inRange, equal⟩ := List.getElem?_eq_some_iff.mp there
  refine ⟨items.take index, items.drop (index + 1), ?_, ?_, ?_⟩
  · rw [← equal, List.getElem_cons_drop, List.take_append_drop]
  · exact List.set_eq_take_append_cons_drop.trans (if_pos inRange)
  · rw [List.length_take, Nat.min_eq_left (Nat.le_of_lt inRange)]

/-- A change of an entry that keeps names keeps the names of the list. -/
theorem names_modify_of_eq
    {change : α → α}
    (same : ∀ item, name (change item) = name item)
    (items : List α)
    (index : Nat) :
    names name (items.modify index change) = names name items := by
  cases there : items[index]? with
  | none =>
      rw [List.modify_eq_set_getElem?, there]
      rfl
  | some old =>
      rw [List.modify_eq_set_getElem?, there]
      exact names_set_of_eq there (same old)

/-- When an entry is written over with a name of the list, the names are distinct
afterwards exactly if they were before and the entry had that name. -/
theorem nodup_names_set_iff
    {items : List α}
    {index : Nat}
    {old new : α}
    {key : κ}
    (there : items[index]? = some old)
    (newName : name new = some key)
    (present : key ∈ names name items) :
    (names name (items.set index new)).Nodup ↔
      (names name items).Nodup ∧ name old = some key := by
  have unchanged (oldName : name old = some key) :
      names name (items.set index new) = names name items :=
    names_set_of_eq there (newName.trans oldName.symm)
  constructor
  · intro stillDistinct
    have oldName : name old = some key := by
      obtain ⟨before, after, split, written, -⟩ := exists_split there new
      rw [written, names_append] at stillDistinct
      rw [split, names_append] at present
      have newFirst : names name (new :: after) = key :: names name after := by
        simp [names, newName]
      rw [newFirst, List.nodup_append'] at stillDistinct
      obtain ⟨-, behind, apart⟩ := stillDistinct
      have notBefore : key ∉ names name before :=
        fun inBefore => apart inBefore List.mem_cons_self
      have notAfter : key ∉ names name after := (List.nodup_cons.mp behind).1
      have inRest : key ∈ names name (old :: after) :=
        (List.mem_append.mp present).resolve_left notBefore
      obtain ⟨item, itemPresent, itemName⟩ := mem_names_iff.mp inRest
      cases List.mem_cons.mp itemPresent with
      | inl equal => exact equal ▸ itemName
      | inr later =>
          exact absurd (mem_names_iff.mpr ⟨item, later, itemName⟩) notAfter
    exact ⟨unchanged oldName ▸ stillDistinct, oldName⟩
  · rintro ⟨distinct, oldName⟩
    rwa [unchanged oldName]

/-- The names after writing over an entry are old ones or the new one. -/
theorem mem_names_of_mem_names_set
    {items : List α}
    {index : Nat}
    {new : α}
    {other : κ}
    (present : other ∈ names name (items.set index new)) :
    other ∈ names name items ∨ name new = some other := by
  obtain ⟨item, isItem, named⟩ := mem_names_iff.mp present
  cases List.mem_or_eq_of_mem_set isItem with
  | inl old => exact .inl (mem_names_iff.mpr ⟨item, old, named⟩)
  | inr equal => exact .inr (equal ▸ named)

/-- A name among distinct ones is lost when its entry is written over with
another name. -/
theorem not_mem_names_set
    {items : List α}
    {index : Nat}
    {old new : α}
    {key : κ}
    (distinct : (names name items).Nodup)
    (there : items[index]? = some old)
    (oldName : name old = some key)
    (newName : name new ≠ some key) :
    key ∉ names name (items.set index new) := by
  obtain ⟨before, after, split, written, -⟩ := exists_split there new
  have oldFirst : names name (old :: after) = key :: names name after := by
    simp [names, oldName]
  rw [split, names_append, oldFirst, List.nodup_append'] at distinct
  obtain ⟨-, behind, apart⟩ := distinct
  have notBefore : key ∉ names name before :=
    fun inBefore => apart inBefore List.mem_cons_self
  have notAfter : key ∉ names name after := (List.nodup_cons.mp behind).1
  rw [written, names_append, List.mem_append]
  rintro (inBefore | inRest)
  · exact notBefore inBefore
  · obtain ⟨item, isItem, named⟩ := mem_names_iff.mp inRest
    cases List.mem_cons.mp isItem with
    | inl equal => exact newName (equal ▸ named)
    | inr later => exact notAfter (mem_names_iff.mpr ⟨item, later, named⟩)

/-- Among distinct names the one of an entry does not occur in front of it. -/
theorem not_mem_names_of_nodup
    {before after : List α}
    {item : α}
    {key : κ}
    (distinct : (names name (before ++ item :: after)).Nodup)
    (named : name item = some key) :
    key ∉ names name before := by
  have first : names name (item :: after) = key :: names name after := by
    simp [names, named]
  rw [names_append, first, List.nodup_append'] at distinct
  exact fun inBefore => distinct.2.2 inBefore List.mem_cons_self

/-- A name that is added at the end has to be new. -/
theorem nodup_names_concat_iff
    {items : List α}
    {new : α}
    {key : κ}
    (newName : name new = some key) :
    (names name (items ++ [new])).Nodup ↔
      (names name items).Nodup ∧ key ∉ names name items := by
  have last : names name [new] = [key] := by simp [names, newName]
  rw [names_append, last, ← List.concat_eq_append, List.nodup_concat, and_comm]

end Names

section Changes

variable {α : Type*}

/-- The first entry with a property splits its list. -/
theorem exists_first
    {holds : α → Prop}
    [DecidablePred holds]
    {items : List α}
    {item : α}
    (found : items.find? (fun item => decide (holds item)) = some item) :
    ∃ before after, items = before ++ item :: after ∧ holds item ∧
      ∀ other ∈ before, ¬ holds other := by
  obtain ⟨here, before, after, split, none⟩ :=
    List.find?_eq_some_iff_append.mp found
  refine ⟨before, after, split, of_decide_eq_true here, fun other isBefore => ?_⟩
  simpa using none other isBefore

/-- A change behind a first part. -/
theorem modify_append
    (before items : List α)
    (place : Nat)
    (change : α → α) :
    (before ++ items).modify (before.length + place) change =
      before ++ items.modify place change := by
  induction before with
  | nil => simp
  | cons item before inductionHypothesis =>
      rw [List.length_cons, Nat.succ_add, List.cons_append, List.cons_append,
        List.modify_succ_cons, inductionHypothesis]

/-- What holds of all entries holds after a change that keeps it. -/
theorem forall_mem_modify
    {holds : α → Prop}
    {items : List α}
    {change : α → α}
    (all : ∀ item ∈ items, holds item)
    (keeps : ∀ item, holds item → holds (change item))
    (index : Nat) :
    ∀ item ∈ items.modify index change, holds item := by
  rw [List.modify_eq_set_getElem?]
  cases there : items[index]? with
  | none => exact all
  | some old =>
      intro item present
      cases List.mem_or_eq_of_mem_set present with
      | inl kept => exact all item kept
      | inr equal => exact equal ▸ keeps old (all old (List.mem_of_getElem? there))

end Changes

section Lookup

variable {α κ : Type*} [DecidableEq κ] {name : α → Option κ}

theorem lookup_eq_none_iff {items : List α} {key : κ} :
    lookup name key items = none ↔ key ∉ names name items := by
  simp only [lookup, List.find?_eq_none, decide_eq_true_eq, mem_names_iff,
    not_exists, not_and]

/-- The entry of a name splits its list behind the entries of other names. -/
theorem exists_split_of_lookup
    {items : List α}
    {item : α}
    {key : κ}
    (found : lookup name key items = some item) :
    ∃ before after, items = before ++ item :: after ∧ name item = some key ∧
      ∀ other ∈ before, name other ≠ some key :=
  exists_first found

@[simp] theorem lookup_append (key : κ) (first second : List α) :
    lookup name key (first ++ second) =
      (lookup name key first).or (lookup name key second) :=
  List.find?_append

theorem lookup_cons_of_ne
    {item : α}
    {key : κ}
    (other : name item ≠ some key)
    (items : List α) :
    lookup name key (item :: items) = lookup name key items := by
  simp [lookup, other]

theorem lookup_cons_of_eq
    {item : α}
    {key : κ}
    (same : name item = some key)
    (items : List α) :
    lookup name key (item :: items) = some item := by
  simp [lookup, same]

/-- Writing over an entry is not seen by the names that are neither the old nor
the new one. -/
theorem lookup_set_of_ne
    {items : List α}
    {index : Nat}
    {old new : α}
    {other : κ}
    (there : items[index]? = some old)
    (oldOther : name old ≠ some other)
    (newOther : name new ≠ some other) :
    lookup name other (items.set index new) = lookup name other items := by
  obtain ⟨before, after, split, written, -⟩ := exists_split there new
  rw [written, split, lookup_append, lookup_append, lookup_cons_of_ne newOther,
    lookup_cons_of_ne oldOther]

/-- A change of an entry that keeps names is not seen by the other names. -/
theorem lookup_modify_of_ne
    {change : α → α}
    {items : List α}
    {index : Nat}
    {old : α}
    {other : κ}
    (same : ∀ item, name (change item) = name item)
    (there : items[index]? = some old)
    (oldOther : name old ≠ some other) :
    lookup name other (items.modify index change) = lookup name other items := by
  rw [List.modify_eq_set_getElem?, there]
  apply lookup_set_of_ne there oldOther
  rwa [same]

/-- Adding an entry at the end is seen by names that read nothing before. -/
theorem lookup_concat
    {items : List α}
    {new : α}
    {key other : κ}
    (newName : name new = some key) :
    lookup name other (items ++ [new]) =
      (lookup name other items).or (if key = other then some new else none) := by
  rw [lookup_append]
  congr 1
  by_cases same : key = other
  · rw [if_pos same, lookup_cons_of_eq (newName.trans (congrArg some same))]
  · rw [if_neg same, lookup_cons_of_ne]
    · rfl
    · rw [newName]
      exact fun equal => same (Option.some.inj equal)

end Lookup

section Union

variable {α κ : Type*} [DecidableEq κ] {name : α → Option κ}

/-- Write an entry over those of its name, or add it at the end. -/
def put (name : α → Option κ) (items : List α) (new : α) : List α :=
  if ∃ old ∈ items, name old = name new then
    items.map fun old => if name old = name new then new else old
  else items ++ [new]

/-- An entry as a list has it, if the list has its name. -/
def overridden (name : α → Option κ) (others : List α) (old : α) : α :=
  ((name old).bind fun key => lookup name key others).getD old

/-- The entries of a list, each as the second list has it, and behind them what
the second list has in addition. -/
def union (name : α → Option κ) (items others : List α) : List α :=
  items.map (overridden name others) ++
    others.filter fun new => ∀ old ∈ items, name old ≠ name new

@[simp] theorem union_nil (items : List α) : union name items [] = items := by
  have unchanged : overridden name [] = id := by
    funext old
    unfold overridden
    cases name old <;> rfl
  rw [union, List.filter_nil, List.append_nil, unchanged, List.map_id]

theorem overridden_of_not_mem
    {others : List α}
    {old : α}
    {key : κ}
    (oldName : name old = some key)
    (absent : key ∉ names name others) :
    overridden name others old = old := by
  rw [overridden, oldName, Option.bind_some, lookup_eq_none_iff.mpr absent,
    Option.getD_none]

theorem overridden_cons
    {new : α}
    {key : κ}
    (newName : name new = some key)
    (others : List α)
    (old : α) :
    overridden name (new :: others) old =
      if name old = some key then new else overridden name others old := by
  unfold overridden
  cases oldName : name old with
  | none => rfl
  | some other =>
      by_cases same : other = key
      · rw [same, if_pos rfl, Option.bind_some, lookup_cons_of_eq newName,
          Option.getD_some]
      · have different : name new ≠ some other := by
          rw [newName]
          exact fun equal => same (Option.some.inj equal).symm
        rw [if_neg (fun equal => same (Option.some.inj equal)), Option.bind_some,
          Option.bind_some, lookup_cons_of_ne different]

/-- Putting an entry and then others is the same as all together. -/
theorem union_cons
    {new : α}
    {others : List α}
    {key : κ}
    (newName : name new = some key)
    (fresh : key ∉ names name others)
    (items : List α) :
    union name items (new :: others) = union name (put name items new) others := by
  have overNew : overridden name others new = new :=
    overridden_of_not_mem newName fresh
  unfold union put
  simp only [newName]
  by_cases present : ∃ old ∈ items, name old = some key
  · have replaced : ∀ old ∈ items,
        overridden name (new :: others) old =
          overridden name others (if name old = some key then new else old) := by
      intro old _
      rw [overridden_cons newName, apply_ite (overridden name others), overNew]
    have sameName (old : α) :
        name (if name old = some key then new else old) = name old := by
      split
      · next same => rw [newName, same]
      · rfl
    have notNew : ¬ ∀ old ∈ items, name old ≠ name new := by
      rw [newName]
      exact fun none =>
        present.elim fun old both => none old both.1 both.2
    rw [if_pos present, List.map_map, List.map_congr_left replaced,
      List.filter_cons_of_neg (by simpa using notNew)]
    simp only [List.forall_mem_map, sameName]
    rfl
  · have kept : ∀ old ∈ items,
        overridden name (new :: others) old = overridden name others old := by
      intro old isOld
      rw [overridden_cons newName, if_neg fun same => present ⟨old, isOld, same⟩]
    have isNew : ∀ old ∈ items, name old ≠ name new := by
      rw [newName]
      exact fun old isOld same => present ⟨old, isOld, same⟩
    have filtered : (others.filter fun other =>
          decide (∀ old ∈ items, name old ≠ name other)) =
        others.filter fun other =>
          decide (∀ old ∈ items ++ [new], name old ≠ name other) := by
      apply List.filter_congr
      intro other isOther
      have different : name new ≠ name other := by
        rw [newName]
        exact fun same => fresh (mem_names_iff.mpr ⟨other, isOther, same.symm⟩)
      refine decide_eq_decide.mpr ?_
      rw [List.forall_mem_append, List.forall_mem_singleton, and_iff_left different]
    rw [if_neg present, List.map_append, List.map_singleton, overNew,
      List.map_congr_left kept, List.filter_cons_of_pos (by simpa using isNew),
      filtered, List.append_assoc, List.singleton_append]

/-- Among distinct names an entry is put over the one of its name. -/
theorem put_of_split
    {before behind : List α}
    {old new : α}
    {key : κ}
    (distinct : (names name (before ++ old :: behind)).Nodup)
    (oldName : name old = some key)
    (newName : name new = some key) :
    put name (before ++ old :: behind) new = before ++ new :: behind := by
  have first : names name (old :: behind) = key :: names name behind := by
    simp [names, oldName]
  rw [names_append, first, List.nodup_append'] at distinct
  obtain ⟨-, behindDistinct, apart⟩ := distinct
  have others {items : List α} (absent : key ∉ names name items) :
      (items.map fun item => if name item = some key then new else item) =
        items := by
    refine (List.map_congr_left fun item isItem => if_neg fun same => ?_).trans
      (List.map_id' items)
    exact absent (mem_names_iff.mpr ⟨item, isItem, same⟩)
  have notBefore : key ∉ names name before :=
    fun inBefore => apart inBefore List.mem_cons_self
  have notBehind : key ∉ names name behind := (List.nodup_cons.mp behindDistinct).1
  have present : ∃ item ∈ before ++ old :: behind, name item = some key :=
    ⟨old, List.mem_append_right before List.mem_cons_self, oldName⟩
  rw [put, newName, if_pos present, List.map_append, List.map_cons, others notBefore,
    others notBehind, if_pos oldName]

/-- What is in a list after an entry was put there. -/
theorem mem_put
    {items : List α}
    {new item : α}
    (present : item ∈ put name items new) :
    item ∈ items ∨ item = new := by
  unfold put at present
  split at present
  · obtain ⟨old, isOld, rfl⟩ := List.mem_map.mp present
    split
    · exact .inr rfl
    · exact .inl isOld
  · rcases List.mem_append.mp present with old | last
    · exact .inl old
    · exact .inr (List.mem_singleton.mp last)

/-- An entry with a new name is put at the end. -/
theorem put_of_not_mem
    {items : List α}
    {new : α}
    {key : κ}
    (newName : name new = some key)
    (absent : key ∉ names name items) :
    put name items new = items ++ [new] := by
  rw [put, newName, if_neg fun present => absent (mem_names_iff.mpr present)]

end Union

end KeyedList
end ProtobufSandbox
