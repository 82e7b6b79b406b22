import ProtobufSandbox.Json.KeyUniqueness

/-!
# Attributes that a call leaves alone

When a mutator that is given a name changes the attributes of that name only. A
replacement by a search that ignores case can delete the attribute of another
spelling, and a name with a zero byte is added under what is in front of it.
-/

namespace ProtobufSandbox
namespace CJSON

/-- What a lookup of exactly this name finds. -/
def itemNamed (object : CJSON) (key : Bytes) : Option CJSON :=
  KeyedList.lookup name key object.child

/-- Every other name is looked up as before. -/
def SameExcept (key : Bytes) (before after : CJSON) : Prop :=
  ∀ other, other ≠ key → after.itemNamed other = before.itemNamed other

theorem SameExcept.refl (key : Bytes) (object : CJSON) :
    SameExcept key object object :=
  fun _ _ => rfl

theorem SameExcept.trans
    {key : Bytes}
    {first second third : CJSON}
    (firstToSecond : SameExcept key first second)
    (secondToThird : SameExcept key second third) :
    SameExcept key first third := by
  intro other different
  exact (secondToThird other different).trans (firstToSecond other different)

/-- A change that leaves the others alone does not matter to what follows it. -/
theorem SameExcept.trans_iff
    {key : Bytes}
    {first second third : CJSON}
    (firstToSecond : SameExcept key first second) :
    SameExcept key first third ↔ SameExcept key second third := by
  refine ⟨fun same other different => ?_, firstToSecond.trans⟩
  exact (same other different).trans (firstToSecond other different).symm

/-- A lookup that stays the same keeps whether there is something. -/
theorem SameExcept.mem_names
    {key other : Bytes}
    {before after : CJSON}
    (same : SameExcept key before after)
    (different : other ≠ key)
    (present : other ∈ before.names) :
    other ∈ after.names := by
  by_contra absent
  have nothing : after.itemNamed other = none :=
    KeyedList.lookup_eq_none_iff.mpr absent
  rw [same other different] at nothing
  exact KeyedList.lookup_eq_none_iff.mp nothing present

/-- The calls that are given one name. -/
def Under (key : Bytes) : Mutation → Prop
  | .setInt own _ | .setBool own _ | .setDouble own _ | .setString own _ =>
      own = key
  | .incrInt own _ | .incrDouble own _ => own = key
  | .copyItem targetKey _ _ => targetKey.val = key
  | .merge source => ∀ item ∈ source.child, item.name = some key
  | .addParamsString _ | .addParamsDouble _ => False

/-- The condition for an effect under a name to leave the other attributes
alone; `key` is the name as it was given. -/
def EffectKind.LeavesOthers
    (object : CJSON)
    (key : Bytes)
    (string : CString) : EffectKind → Prop
  | .keep | .write => True
  | .add => string.val = key ∨ string.val ∈ object.names
  | .replace => object.FirstExact string

/-- The condition for a call under a name to leave the other attributes alone. A
merge replaces when the name is there, and when it is merged twice. -/
def LeavesOthers (object : CJSON) (key : Bytes) : Mutation → Prop
  | .merge source =>
      (source.child ≠ [] ∧ key ∈ object.names) ∨
          2 ≤ (source.child.filter Copies).length →
        object.FirstExact (CString.ofBuffer key)
  | mutation =>
      ∀ effect ∈ object.effectOf mutation,
        effect.2.LeavesOthers object key effect.1

/-! ## One effect -/

section Effects

variable {object after : CJSON} {string : CString} {kind : EffectKind}

/-- No effect brings back a name. -/
theorem Effect.mem_names_of_mem
    {other : Bytes}
    (effect : Effect object string kind after)
    (different : other ≠ string.val)
    (present : other ∈ after.names) :
    other ∈ object.names := by
  have own {newitem : CJSON} :
      name { newitem with string := some string } ≠ some other :=
    fun named => different (Option.some.inj named).symm
  cases effect with
  | keep => exact present
  | add newitem =>
      obtain ⟨item, isItem, named⟩ := KeyedList.mem_names_iff.mp present
      cases List.mem_append.mp isItem with
      | inl old => exact KeyedList.mem_names_iff.mpr ⟨item, old, named⟩
      | inr new => exact absurd (List.mem_singleton.mp new ▸ named) own
  | write change index member there named sameName =>
      rw [names, names_modify sameName] at present
      exact present
  | replace newitem write which index member first there named sameName =>
      rw [names, apply_ite (KeyedList.names name), names_modify sameName,
        ite_self] at present
      exact (KeyedList.mem_names_of_mem_names_set present).resolve_right own

/-- A replacement that does not find its own spelling loses another name. -/
theorem Effect.lost
    (effect : Effect object string .replace after)
    (distinct : object.NamesDistinct)
    (inexact : ¬ object.FirstExact string) :
    ∃ other, other ≠ string.val ∧ other ∈ object.names ∧
      other ∉ after.names := by
  cases effect with
  | replace newitem write which index member first there named sameName =>
      obtain ⟨old, oldThere, found, own, oldName⟩ := firstLike_of_indexLike first
      have different : own ≠ string.val := by
        rintro rfl
        exact inexact fun member isFirst =>
          Option.some.inj (found.symm.trans isFirst) ▸ oldName
      have newName :
          name { newitem with string := some string } ≠ some own :=
        fun named => different (Option.some.inj named).symm
      refine ⟨own, different, mem_names_of_getElem? oldThere oldName, ?_⟩
      rw [names, apply_ite (KeyedList.names name), names_modify sameName,
        ite_self]
      exact KeyedList.not_mem_names_set distinct oldThere oldName newName

/-- A replacement of the own spelling is not seen under other names. -/
theorem Effect.sameExcept_of_firstExact
    (effect : Effect object string .replace after)
    (exactly : object.FirstExact string) :
    SameExcept string.val object after := by
  cases effect with
  | replace newitem write which index member first there named sameName =>
      obtain ⟨old, oldThere, found, -⟩ := firstLike_of_indexLike first
      have oldName : old.name = some string.val := exactly old found
      intro other different
      have others {item : CJSON} (itemName : item.name = some string.val) :
          item.name ≠ some other := by
        rw [itemName]
        exact fun equal => different (Option.some.inj equal).symm
      have replaced :
          KeyedList.lookup name other
              (object.child.set which { newitem with string := some string }) =
            KeyedList.lookup name other object.child :=
        KeyedList.lookup_set_of_ne oldThere (others oldName) (others rfl)
      unfold itemNamed
      dsimp only
      split
      · exact replaced
      · next apart =>
          have stillThere :
              (object.child.set which
                { newitem with string := some string })[index]? = some member := by
            rw [List.getElem?_set_ne apart, there]
          refine Eq.trans ?_ replaced
          apply KeyedList.lookup_modify_of_ne ?_ stillThere (others named)
          intro item
          rw [name, name, sameName]

/-- An effect leaves the other attributes alone exactly under its condition. -/
theorem Effect.sameExcept_iff
    {key : Bytes}
    (effect : Effect object string kind after)
    (distinct : object.NamesDistinct)
    (spelled : kind = .replace ∨ kind = .write → string.val = key) :
    SameExcept key object after ↔ kind.LeavesOthers object key string := by
  cases kind with
  | keep =>
      cases effect
      exact iff_of_true (SameExcept.refl key object) trivial
  | write =>
      obtain rfl := spelled (.inr rfl)
      cases effect with
      | write change index member there named sameName =>
          refine iff_of_true (fun other different => ?_) trivial
          apply KeyedList.lookup_modify_of_ne ?_ there
          · rw [named]
            exact fun equal => different (Option.some.inj equal).symm
          · intro item
            rw [name, name, sameName]
  | replace =>
      obtain rfl := spelled (.inl rfl)
      refine ⟨fun same => ?_, effect.sameExcept_of_firstExact⟩
      by_contra inexact
      obtain ⟨other, different, present, absent⟩ := effect.lost distinct inexact
      exact absent (same.mem_names different present)
  | add =>
      cases effect with
      | add newitem =>
          have added (other : Bytes) :
              (object.addItemToObject string (some newitem)).itemNamed other =
                (object.itemNamed other).or
                  (if string.val = other then
                    some { newitem with string := some string } else none) :=
            KeyedList.lookup_concat rfl
          constructor
          · intro same
            by_contra other
            obtain ⟨different, absent⟩ := not_or.mp other
            have read := same string.val different
            have nothing : object.itemNamed string.val = none :=
              KeyedList.lookup_eq_none_iff.mpr absent
            rw [added, nothing, if_pos rfl] at read
            cases read
          · intro condition other different
            rw [added]
            by_cases equal : string.val = other
            · have present : other ∈ object.names :=
                equal ▸ condition.resolve_left fun own =>
                  different (equal.symm.trans own)
              have found : (object.itemNamed other).isSome = true := by
                rw [Option.isSome_iff_ne_none]
                exact fun none => KeyedList.lookup_eq_none_iff.mp none present
              exact Option.or_of_isSome found
            · rw [if_neg equal, Option.or_none]

end Effects

/-! ## Merges of one name -/

/-- A name that is added at the end is found where it was found before, or
exactly. -/
theorem firstExact_concat_iff
    {object after : CJSON}
    {string : CString}
    (spelled : after.spellings = object.spellings ++ [some string]) :
    after.FirstExact string ↔ object.FirstExact string := by
  rw [firstExact_iff, firstExact_iff, spelled, List.find?_append]
  cases found : object.spellings.find? fun own =>
      decide (strcasecmp own (some string) = 0) with
  | some own => rfl
  | none =>
      refine iff_of_true ?_ (fun own none => absurd none (Option.not_mem_none own))
      intro own last
      rw [Option.none_or] at last
      exact List.mem_singleton.mp (List.mem_of_find?_eq_some last)

section MergesOfOneName

variable {items : List CJSON} {object : CJSON} {next result : List CJSON}
variable {key : CString}

/-- The first turn of a merge of one name. -/
theorem mergeItems_cons_of_named
    {item : CJSON}
    (isObject : object.type = .object)
    (itemNamed : item.name = some key.val)
    (called : mergeItems (object :: next) (item :: items) = .ok result) :
    ∃ middle, key.val ≠ [] ∧
      Effect object key (object.installKind key item.Copies) middle ∧
      (object.HasMember key → item.Copies = true) ∧
      mergeItems (middle :: next) items = .ok result := by
  obtain ⟨own, middle, spelled, filled, effect, copies, restCalled⟩ :=
    mergeItems_cons isObject called
  rw [name, spelled, Option.map_some, Option.some.injEq] at itemNamed
  obtain rfl := Subtype.ext itemNamed
  exact ⟨middle, filled, effect, copies, restCalled⟩

/-- A merge of one name brings back no other name. -/
theorem mem_names_of_mergeItems
    {after : CJSON}
    {rest : List CJSON}
    {other : Bytes}
    (isObject : object.type = .object)
    (named : ∀ item ∈ items, item.name = some key.val)
    (called : mergeItems (object :: next) items = .ok (after :: rest))
    (different : other ≠ key.val)
    (present : other ∈ after.names) :
    other ∈ object.names := by
  induction items generalizing object with
  | nil =>
      cases called
      exact present
  | cons item items inductionHypothesis =>
      obtain ⟨itemNamed, named⟩ := List.forall_mem_cons.mp named
      obtain ⟨middle, -, effect, -, called⟩ :=
        mergeItems_cons_of_named isObject itemNamed called
      apply effect.mem_names_of_mem different
      exact inductionHypothesis (effect.type_eq.trans isObject) named called

/-- What is merged under the name of a member replaces it, so it can be copied. -/
theorem ne_nil_iff_of_mergeItems
    (isObject : object.type = .object)
    (member : object.HasMember key)
    (named : ∀ item ∈ items, item.name = some key.val)
    (called : mergeItems (object :: next) items = .ok result) :
    items ≠ [] ↔ 1 ≤ (items.filter Copies).length := by
  cases items with
  | nil => simp
  | cons item items =>
      obtain ⟨-, -, -, copies, -⟩ :=
        mergeItems_cons_of_named isObject (named item List.mem_cons_self) called
      rw [List.filter_cons_of_pos (copies member), List.length_cons]
      exact iff_of_true (List.cons_ne_nil item items) (Nat.le_add_left 1 _)

/-- A merge of one name leaves the other attributes alone unless it replaces an
attribute of another spelling. -/
theorem sameExcept_mergeItems_iff
    {after : CJSON}
    {rest : List CJSON}
    (isObject : object.type = .object)
    (distinct : object.NamesDistinct)
    (named : ∀ item ∈ items, item.name = some key.val)
    (called : mergeItems (object :: next) items = .ok (after :: rest)) :
    SameExcept key.val object after ↔
      ((items ≠ [] ∧ key.val ∈ object.names) ∨
          2 ≤ (items.filter Copies).length →
        object.FirstExact key) := by
  induction items generalizing object with
  | nil =>
      cases called
      exact iff_of_true (SameExcept.refl _ _) (by simp)
  | cons item items inductionHypothesis =>
      obtain ⟨itemNamed, restNamed⟩ := List.forall_mem_cons.mp named
      obtain ⟨middle, filled, effect, -, restCalled⟩ :=
        mergeItems_cons_of_named isObject itemNamed called
      have middleObject := effect.type_eq.trans isObject
      by_cases present : key.val ∈ object.names
      · have kind : object.installKind key item.Copies = .replace :=
          if_pos ⟨filled, present⟩
        rw [kind] at effect
        by_cases exactly : object.FirstExact key
        · have middleSpelled := effect.spellings_eq exactly
          have middleDistinct := effect.namesDistinct_iff.mpr ⟨distinct, exactly⟩
          have middleExact :=
            (firstExact_append_iff middleSpelled present).mpr exactly
          have restSame := (inductionHypothesis middleObject middleDistinct
            restNamed restCalled).mpr fun _ => middleExact
          exact iff_of_true
            ((effect.sameExcept_of_firstExact exactly).trans restSame)
            fun _ => exactly
        · obtain ⟨other, different, had, lost⟩ := effect.lost distinct exactly
          refine iff_of_false (fun same => lost ?_)
            fun condition =>
              exactly (condition (.inl ⟨List.cons_ne_nil item items, present⟩))
          exact mem_names_of_mergeItems middleObject restNamed restCalled
            different (same.mem_names different had)
      · have absent : ¬ object.HasMember key := fun member => present member.2
        by_cases copied : item.Copies = true
        · have kind : object.installKind key item.Copies = .add := by
            rw [installKind, if_neg absent, if_pos copied]
          rw [kind] at effect
          have middleSpelled := effect.spellings_eq present
          have middleDistinct := effect.namesDistinct_iff.mpr ⟨distinct, present⟩
          have added : key.val ∈ middle.names := by
            rw [names_eq_filterMap, middleSpelled]
            simp
          have firstSame : SameExcept key.val object middle :=
            (effect.sameExcept_iff distinct fun _ => rfl).mpr (.inl rfl)
          -- What follows replaces the new attribute.
          have again := ne_nil_iff_of_mergeItems middleObject ⟨filled, added⟩
            restNamed restCalled
          rw [firstSame.trans_iff,
            inductionHypothesis middleObject middleDistinct restNamed restCalled,
            firstExact_concat_iff middleSpelled, List.filter_cons_of_pos copied,
            List.length_cons, again]
          refine imp_congr_left ?_
          simp only [added, present, and_true, and_false, false_or]
          omega
        · have kind : object.installKind key item.Copies = .keep := by
            rw [installKind, if_neg absent, if_neg copied]
          rw [kind] at effect
          cases effect
          rw [inductionHypothesis isObject distinct restNamed restCalled,
            List.filter_cons_of_neg copied]
          simp only [present, and_false, false_or]

end MergesOfOneName

/-! ## Calls -/

/-- A name that is held has no zero byte. -/
theorem HoldsAttribute.ofBuffer_eq
    {object : CJSON}
    {key : Bytes}
    {accepts : CJSONType → Bool}
    (holds : object.HoldsAttribute key accepts) :
    (CString.ofBuffer key).val = key := by
  obtain ⟨member, -, named, -⟩ := holds
  exact ofBuffer_val_of_name named

/-- A call under a name leaves the other attributes alone exactly if it replaces
no attribute of another spelling and adds no attribute under another name. -/
theorem sameExcept_mutate_iff
    {object after : CJSON}
    {key : Bytes}
    {mutation : Mutation}
    (isObject : object.type = .object)
    (distinct : object.NamesDistinct)
    (under : Under key mutation)
    (called : object.mutate mutation = some after) :
    SameExcept key object after ↔ object.LeavesOthers key mutation := by
  have single {string : CString} {kind : EffectKind}
      (only : object.effectOf mutation = some (string, kind))
      (spelled : kind = .replace ∨ kind = .write → string.val = key) :
      SameExcept key object after ↔
        ∀ effect ∈ object.effectOf mutation,
          effect.2.LeavesOthers object key effect.1 := by
    have effect := effect_of_mutate isObject only called
    rw [effect.sameExcept_iff distinct spelled, only]
    simp
  -- An attribute that is found has the name as it was given.
  have held {accepts : CJSONType → Bool} {found missing : EffectKind}
      (untouched : missing = .add ∨ missing = .keep)
      (touches : (if object.HoldsAttribute key accepts then found else missing) =
          .replace ∨
        (if object.HoldsAttribute key accepts then found else missing) =
          .write) :
      (CString.ofBuffer key).val = key := by
    by_cases holds : object.HoldsAttribute key accepts
    · exact holds.ofBuffer_eq
    · rw [if_neg holds] at touches
      rcases untouched with rfl | rfl <;> simp at touches
  cases mutation with
  | setInt own _ | setBool own _ | setDouble own _ | setString own _ =>
      obtain rfl : own = key := under
      exact single rfl (held (.inl rfl))
  | incrInt own _ | incrDouble own _ =>
      obtain rfl : own = key := under
      exact single rfl (held (.inr rfl))
  | copyItem targetKey source sourceKey =>
      exact single rfl fun _ => under
  | merge source =>
      obtain ⟨next, called⟩ := mutate_eq_some_iff.mp called
      obtain ⟨⟨answer, chain⟩, called, rfl⟩ := Outcome.map_eq_ok_iff.mp called
      obtain ⟨merged, called, rest⟩ := Outcome.bind_eq_ok_iff.mp called
      cases rest
      cases items : source.child with
      | nil =>
          rw [items] at called
          cases called
          exact iff_of_true (SameExcept.refl _ _) (by simp [LeavesOthers, items])
      | cons item rest =>
          obtain ⟨own, -, rfl⟩ := Option.map_eq_some_iff.mp
            (under item (items ▸ List.mem_cons_self))
          rw [sameExcept_mergeItems_iff isObject distinct under called]
          simp only [LeavesOthers, CString.ofBuffer_val]
  | addParamsString entries => exact under.elim
  | addParamsDouble entries => exact under.elim

/-- Setting the attribute that comes first leaves the other one alone. -/
theorem sameExcept_first_case :
    ∃ after, bothCases.mutate (.setString (ascii ['a']) (ascii ['z'])) =
        some after ∧ SameExcept (ascii ['a']) bothCases after := by
  refine ⟨_, rfl, ?_⟩
  refine (@sameExcept_mutate_iff bothCases _ _
    (.setString (ascii ['a']) (ascii ['z'])) rfl (by decide) rfl rfl).mpr ?_
  rintro effect ⟨rfl⟩
  change bothCases.FirstExact (CString.ofBuffer (ascii ['a']))
  decide

/-- Setting the attribute `A` loses the attribute `a`. -/
theorem not_sameExcept_second_case :
    ∃ after, bothCases.mutate (.setString (ascii ['A']) (ascii ['z'])) =
        some after ∧ ¬ SameExcept (ascii ['A']) bothCases after := by
  refine ⟨_, rfl, fun same => ?_⟩
  have lost := same.mem_names (by decide : ascii ['a'] ≠ ascii ['A']) (by decide)
  revert lost
  decide

end CJSON
end ProtobufSandbox
