import Mathlib.Data.List.Nodup
import Mathlib.Data.List.Perm.Basic

/-!
# Ordered maps

A map as the list of its entries in the order of their keys, with the insertion that
leaves an old entry alone and the write to an old entry. The laws read maps by their
keys: a map is what it answers to each key, and a sequence of writes answers with the
last value of a key.
-/

namespace ProtobufSandbox

/-- The entries of a map, in the order of their keys. -/
structure OrderedMap (κ ν : Type*) [LT κ] where
  entries : List (κ × ν)
  sorted : entries.Pairwise fun first second => first.1 < second.1

namespace OrderedMap

/-! ## Entries -/

section Lookup

variable {κ ν : Type*} [DecidableEq κ]

/-- The value of the first entry of a key. -/
def lookup (key : κ) (entries : List (κ × ν)) : Option ν :=
  (entries.find? fun entry => decide (entry.1 = key)).map Prod.snd

/-- Write the value of the entry of a key. -/
def writeEntry (key : κ) (value : ν) (entries : List (κ × ν)) : List (κ × ν) :=
  entries.map fun entry => if entry.1 = key then (entry.1, value) else entry

theorem lookup_cons (key : κ) (entry : κ × ν) (entries : List (κ × ν)) :
    lookup key (entry :: entries) =
      if entry.1 = key then some entry.2 else lookup key entries := by
  unfold lookup
  by_cases same : entry.1 = key
  · simp [same]
  · simp [same]

theorem lookup_append (key : κ) (first second : List (κ × ν)) :
    lookup key (first ++ second) = (lookup key first).or (lookup key second) := by
  rw [lookup, List.find?_append, Option.map_or]
  rfl

theorem lookup_eq_none_iff {key : κ} {entries : List (κ × ν)} :
    lookup key entries = none ↔ ∀ entry ∈ entries, entry.1 ≠ key := by
  simp [lookup, List.find?_eq_none]

/-- Where keys are distinct, the value of a key is that of its entry. -/
theorem lookup_eq_some_iff
    {key : κ}
    {value : ν}
    {entries : List (κ × ν)}
    (distinct : (entries.map Prod.fst).Nodup) :
    lookup key entries = some value ↔ (key, value) ∈ entries := by
  induction entries with
  | nil => simp [lookup]
  | cons entry entries inductionHypothesis =>
      obtain ⟨absent, rest⟩ := List.nodup_cons.mp distinct
      rw [lookup_cons, List.mem_cons]
      by_cases here : entry.1 = key
      · subst here
        have later : (entry.1, value) ∉ entries :=
          fun present => absent (List.mem_map.mpr ⟨_, present, rfl⟩)
        rw [if_pos rfl, or_iff_left later, Option.some.injEq, Prod.ext_iff]
        simp [eq_comm]
      · have other : (key, value) ≠ entry := fun same => here (same ▸ rfl)
        rw [if_neg here, or_iff_right other]
        exact inductionHypothesis rest

/-- The order of entries with distinct keys does not matter. -/
theorem lookup_eq_of_perm
    {first second : List (κ × ν)}
    (distinct : (first.map Prod.fst).Nodup)
    (perm : first.Perm second)
    (key : κ) :
    lookup key first = lookup key second := by
  apply Option.ext
  intro value
  rw [lookup_eq_some_iff distinct, perm.mem_iff,
    lookup_eq_some_iff ((perm.map Prod.fst).nodup_iff.mp distinct)]

/-- A write is seen by its key, if that has an entry, and by no other. -/
theorem lookup_writeEntry (key other : κ) (value : ν) (entries : List (κ × ν)) :
    lookup other (writeEntry key value entries) =
      if key = other then (lookup key entries).map fun _ => value
      else lookup other entries := by
  induction entries with
  | nil => simp [writeEntry, lookup]
  | cons entry entries inductionHypothesis =>
      rw [writeEntry, List.map_cons, ← writeEntry, lookup_cons, lookup_cons, lookup_cons,
        inductionHypothesis]
      by_cases here : entry.1 = key
      · subst here
        by_cases same : entry.1 = other
        · simp [same]
        · simp [same]
      · by_cases same : key = other
        · subst same
          simp [here]
        · simp [here, same]

theorem map_fst_writeEntry (key : κ) (value : ν) (entries : List (κ × ν)) :
    (writeEntry key value entries).map Prod.fst = entries.map Prod.fst := by
  rw [writeEntry, List.map_map]
  apply List.map_congr_left
  intro entry _
  dsimp only [Function.comp_apply]
  split <;> rfl

end Lookup

section Insertion

variable {κ ν : Type*} [LT κ] [DecidableLT κ]

/-- Insert a key in front of the first larger one, unless it is there. -/
def insertEntry (key : κ) (value : ν) : List (κ × ν) → List (κ × ν)
  | [] => [(key, value)]
  | entry :: entries =>
      if key < entry.1 then (key, value) :: entry :: entries
      else if entry.1 < key then entry :: insertEntry key value entries
      else entry :: entries

theorem mem_insertEntry
    {key : κ}
    {value : ν}
    {entry : κ × ν}
    {entries : List (κ × ν)}
    (present : entry ∈ insertEntry key value entries) :
    entry = (key, value) ∨ entry ∈ entries := by
  induction entries with
  | nil => exact .inl (List.mem_singleton.mp present)
  | cons first entries inductionHypothesis =>
      rw [insertEntry] at present
      split at present
      · exact List.mem_cons.mp present
      · split at present
        · rcases List.mem_cons.mp present with rfl | later
          · exact .inr List.mem_cons_self
          · exact (inductionHypothesis later).imp_right (List.mem_cons_of_mem _)
        · exact .inr present

variable [LE κ] [Std.IsLinearOrder κ] [Std.LawfulOrderLT κ]

/-- A new key is one more entry. -/
theorem perm_insertEntry
    {key : κ}
    {entries : List (κ × ν)}
    (new : ∀ entry ∈ entries, entry.1 ≠ key)
    (value : ν) :
    (insertEntry key value entries).Perm ((key, value) :: entries) := by
  induction entries with
  | nil => exact List.Perm.refl _
  | cons entry entries inductionHypothesis =>
      rw [insertEntry]
      obtain ⟨other, others⟩ := List.forall_mem_cons.mp new
      split
      case isTrue => exact List.Perm.refl _
      case isFalse notBelow =>
        have below : entry.1 < key :=
          Std.lt_of_le_of_ne (Std.not_lt.mp notBelow) other
        rw [if_pos below]
        exact ((inductionHypothesis others).cons entry).trans (List.Perm.swap _ _ _)

/-- An insertion keeps the order of the keys. -/
theorem sorted_insertEntry
    {entries : List (κ × ν)}
    (sorted : entries.Pairwise fun first second => first.1 < second.1)
    (key : κ)
    (value : ν) :
    (insertEntry key value entries).Pairwise fun first second => first.1 < second.1 := by
  induction entries with
  | nil => exact List.pairwise_singleton _ _
  | cons entry entries inductionHypothesis =>
      obtain ⟨smallest, rest⟩ := List.pairwise_cons.mp sorted
      rw [insertEntry]
      split
      case isTrue below =>
        refine List.pairwise_cons.mpr ⟨?_, sorted⟩
        rw [List.forall_mem_cons]
        exact ⟨below, fun other present => Std.lt_trans below (smallest other present)⟩
      case isFalse =>
        split
        case isTrue above =>
          refine List.pairwise_cons.mpr ⟨fun other present => ?_, inductionHypothesis rest⟩
          rcases mem_insertEntry present with rfl | old
          · exact above
          · exact smallest other old
        case isFalse => exact sorted

end Insertion

/-! ## Maps -/

section Maps

variable {κ ν : Type*} [LT κ] [DecidableEq κ]

/-- The map without entries. -/
def empty : OrderedMap κ ν where
  entries := []
  sorted := List.Pairwise.nil

/-- The value of a key. -/
def find (map : OrderedMap κ ν) (key : κ) : Option ν :=
  lookup key map.entries

/-- Write the value of the entry of a key, if there is one. -/
def write (map : OrderedMap κ ν) (key : κ) (value : ν) : OrderedMap κ ν where
  entries := writeEntry key value map.entries
  sorted := by
    have keys : (map.entries.map Prod.fst).Pairwise (· < ·) := List.pairwise_map.mpr map.sorted
    rw [← map_fst_writeEntry key value map.entries] at keys
    exact List.pairwise_map.mp keys

variable [LE κ] [DecidableLT κ] [Std.IsLinearOrder κ] [Std.LawfulOrderLT κ]

/-- Insert an entry, unless its key is there. -/
def insert (map : OrderedMap κ ν) (key : κ) (value : ν) : OrderedMap κ ν where
  entries := insertEntry key value map.entries
  sorted := sorted_insertEntry map.sorted key value

/-- Give a key a value: the entry that it has is written, or a new one inserted. -/
def put (map : OrderedMap κ ν) (key : κ) (value : ν) : OrderedMap κ ν :=
  match map.find key with
  | none => map.insert key value
  | some _ => map.write key value

/-- Give keys their values in order. -/
def putAll (map : OrderedMap κ ν) (entries : List (κ × ν)) : OrderedMap κ ν :=
  entries.foldl (fun map entry => map.put entry.1 entry.2) map

end Maps

section Reading

variable {κ ν : Type*} [LE κ] [LT κ] [Std.LawfulOrderLT κ]
variable {map : OrderedMap κ ν} {key : κ} {value : ν}

/-- The keys of a map are distinct. -/
theorem nodup_keys (map : OrderedMap κ ν) : (map.entries.map Prod.fst).Nodup := by
  refine List.Pairwise.imp ?_ (List.pairwise_map.mpr map.sorted)
  rintro first second below rfl
  exact Std.lt_irrefl below

variable [DecidableEq κ]

/-- The entries of a map are what it answers to its keys. -/
theorem find_eq_some_iff : map.find key = some value ↔ (key, value) ∈ map.entries :=
  lookup_eq_some_iff map.nodup_keys

/-- The last value of a key among the entries of a map is its value. -/
theorem lookup_reverse_entries (map : OrderedMap κ ν) (key : κ) :
    lookup key map.entries.reverse = map.find key :=
  (lookup_eq_of_perm map.nodup_keys (List.reverse_perm _).symm key).symm

end Reading

section Laws

variable {κ ν : Type*} [LE κ] [LT κ] [DecidableEq κ]
variable [Std.IsLinearOrder κ] [Std.LawfulOrderLT κ]
variable {map other : OrderedMap κ ν} {key : κ} {value : ν}

/-- Two maps that answer alike are equal. -/
theorem ext_find (same : ∀ key, map.find key = other.find key) : map = other := by
  have perm : map.entries.Perm other.entries := by
    apply (List.perm_ext_iff_of_nodup (List.Nodup.of_map _ map.nodup_keys)
      (List.Nodup.of_map _ other.nodup_keys)).mpr
    intro entry
    rw [← find_eq_some_iff, ← find_eq_some_iff, same]
  have equal : map.entries = other.entries :=
    perm.eq_of_pairwise (fun first second _ _ below above =>
      absurd (Std.lt_trans below above) Std.lt_irrefl) map.sorted other.sorted
  cases map
  cases other
  cases equal
  rfl

variable [DecidableLT κ]

/-- A new key is one more entry of a map. -/
theorem perm_put (new : map.find key = none) (value : ν) :
    (map.put key value).entries.Perm ((key, value) :: map.entries) := by
  rw [put, new]
  exact perm_insertEntry (lookup_eq_none_iff.mp new) value

/-- A value that is put is found under its key, and nothing else has changed. -/
theorem find_put (map : OrderedMap κ ν) (key other : κ) (value : ν) :
    (map.put key value).find other = if key = other then some value else map.find other := by
  cases old : map.find key with
  | none =>
      apply Option.ext
      intro found
      rw [find_eq_some_iff, (perm_put old value).mem_iff, List.mem_cons, ← find_eq_some_iff,
        Prod.mk.injEq]
      by_cases same : key = other
      · subst same
        simp [old, eq_comm]
      · simp [same, Ne.symm same]
  | some before =>
      rw [put, old]
      dsimp only
      rw [write, find, lookup_writeEntry]
      rw [find] at old
      rw [old]
      rfl

/-- A key is found with the last value that it is given, or as before. -/
theorem find_putAll (map : OrderedMap κ ν) (entries : List (κ × ν)) (key : κ) :
    (map.putAll entries).find key = (lookup key entries.reverse).or (map.find key) := by
  induction entries generalizing map with
  | nil => rfl
  | cons entry entries inductionHypothesis =>
      rw [putAll, List.foldl_cons, ← putAll, inductionHypothesis, List.reverse_cons,
        lookup_append, find_put, lookup_cons, Option.or_assoc]
      by_cases same : entry.1 = key
      · simp [same]
      · simp [same, lookup]

/-- Giving keys their values changes nothing exactly if each has its last value
before. -/
theorem putAll_eq_self_iff {entries : List (κ × ν)} :
    map.putAll entries = map ↔
      ∀ key value, lookup key entries.reverse = some value → map.find key = some value := by
  constructor
  · intro same key value last
    rw [← same, find_putAll, last]
    rfl
  · intro holds
    refine ext_find fun key => ?_
    rw [find_putAll]
    cases last : lookup key entries.reverse with
    | none => rfl
    | some value => exact (holds key value last).symm

/-- New keys that are distinct are the entries of a map without entries. -/
theorem perm_putAll
    {entries : List (κ × ν)}
    (distinct : (entries.map Prod.fst).Nodup)
    (new : ∀ entry ∈ entries, map.find entry.1 = none) :
    (map.putAll entries).entries.Perm (map.entries ++ entries) := by
  induction entries generalizing map with
  | nil => simp [putAll]
  | cons entry entries inductionHypothesis =>
      obtain ⟨absent, distinct⟩ := List.nodup_cons.mp distinct
      obtain ⟨first, rest⟩ := List.forall_mem_cons.mp new
      have stillNew : ∀ other ∈ entries, (map.put entry.1 entry.2).find other.1 = none := by
        intro other present
        have differs : entry.1 ≠ other.1 :=
          fun same => absent (same ▸ List.mem_map_of_mem present)
        rw [find_put, if_neg differs, rest other present]
      have later := inductionHypothesis distinct stillNew
      rw [putAll, List.foldl_cons, ← putAll]
      exact (later.trans ((perm_put first entry.2).append_right entries)).trans
        List.perm_middle.symm

end Laws

end OrderedMap
end ProtobufSandbox
