import ProtobufSandbox.Foundation.TransitionSystem
import ProtobufSandbox.Json.Mutation

/-!
# Distinct names

Whether the mutators keep the names of an object distinct. An attribute is
looked for under exactly its name and type, and what is found is then replaced
by a search that ignores case: names stay distinct exactly as long as that
search finds an attribute of the same spelling, and a name that is added is new.
-/

namespace ProtobufSandbox
namespace CJSON

/-- The names of the members are distinct, compared exactly. -/
def NamesDistinct (object : CJSON) : Prop :=
  object.names.Nodup

instance NamesDistinct.decidable (object : CJSON) :
    Decidable object.NamesDistinct :=
  inferInstanceAs (Decidable object.names.Nodup)

/-- The condition for an effect to keep names distinct. -/
def EffectKind.KeepsDistinct
    (object : CJSON)
    (key : CString) : EffectKind → Prop
  | .keep | .write => True
  | .add => key.val ∉ object.names
  | .replace => object.FirstExact key

instance EffectKind.KeepsDistinct.decidable (object : CJSON) (key : CString) :
    ∀ kind : EffectKind, Decidable (kind.KeepsDistinct object key)
  | .keep | .write => isTrue trivial
  | .add => inferInstanceAs (Decidable (key.val ∉ object.names))
  | .replace => inferInstanceAs (Decidable (object.FirstExact key))

/-- The condition for a call to keep names distinct: what it adds is new, and
what it replaces is not an attribute of another spelling. Parameters are always
added to an object of their own. -/
def KeepsDistinct (object : CJSON) : Mutation → Prop
  | .merge source =>
      ∀ item ∈ source.child, ∀ key ∈ item.string,
        key.val ∈ object.names → object.FirstExact key
  | .addParamsString _ | .addParamsDouble _ => True
  | mutation =>
      ∀ effect ∈ object.effectOf mutation,
        effect.2.KeepsDistinct object effect.1

/-! ## One effect -/

/-- A change that keeps the name of an item keeps the names of its chain. -/
theorem names_modify
    {change : CJSON → CJSON}
    (sameName : ∀ item, (change item).string = item.string)
    (items : List CJSON)
    (index : Nat) :
    KeyedList.names name (items.modify index change) =
      KeyedList.names name items := by
  apply KeyedList.names_modify_of_eq
  intro item
  rw [name, name, sameName]

/-- An effect keeps names distinct under its condition only, and it never makes
names distinct that were not. -/
theorem Effect.namesDistinct_iff
    {object after : CJSON}
    {key : CString}
    {kind : EffectKind}
    (effect : Effect object key kind after) :
    after.NamesDistinct ↔
      object.NamesDistinct ∧ kind.KeepsDistinct object key := by
  cases effect with
  | keep => exact (and_iff_left trivial).symm
  | add newitem => exact KeyedList.nodup_names_concat_iff rfl
  | write change index member there named sameName =>
      have same := names_modify sameName object.child index
      rw [NamesDistinct, names, same]
      exact (and_iff_left trivial).symm
  | replace newitem write which index member first there named sameName =>
      obtain ⟨old, oldThere, found, own, oldName⟩ := firstLike_of_indexLike first
      have exactly : object.FirstExact key ↔ old.name = some key.val := by
        simp [FirstExact, found]
      have present := mem_names_of_getElem? there named
      have newName : name { newitem with string := some key } = some key.val := rfl
      unfold NamesDistinct names
      rw [apply_ite (KeyedList.names name), names_modify sameName, ite_self,
        KeyedList.nodup_names_set_iff oldThere newName present]
      exact and_congr_right fun _ => exactly.symm

/-! ## Merges -/

/-- The names of the members as they are stored, in order. -/
def spellings (object : CJSON) : List (Option CString) :=
  object.child.map CJSON.string

theorem names_eq_filterMap (object : CJSON) :
    object.names = object.spellings.filterMap (Option.map Subtype.val) := by
  rw [spellings, List.filterMap_map]
  rfl

/-- Which name is found ignoring case depends on the names only. -/
theorem firstExact_iff (object : CJSON) (string : CString) :
    object.FirstExact string ↔
      ∀ own ∈ object.spellings.find? fun own =>
          decide (strcasecmp own (some string) = 0),
        own = some string := by
  rw [spellings, List.find?_map]
  simp only [FirstExact, firstLike, Option.mem_def, Option.map_eq_some_iff,
    forall_exists_index, and_imp, forall_apply_eq_imp_iff₂]
  refine forall₂_congr fun member _ => ?_
  rw [name, ← Option.map_some, Option.map_injective Subtype.val_injective |>.eq_iff]

theorem spellings_eq_names (object : CJSON) :
    object.spellings =
      KeyedList.names (fun member => some member.string) object.child :=
  (congrFun List.filterMap_eq_map' _).symm

/-- An effect that keeps names distinct changes the names at most by adding its
own at the end. -/
theorem Effect.spellings_eq
    {object after : CJSON}
    {key : CString}
    {kind : EffectKind}
    (effect : Effect object key kind after)
    (kept : kind.KeepsDistinct object key) :
    after.spellings =
      object.spellings ++ if kind = .add then [some key] else [] := by
  have modified {change : CJSON → CJSON}
      (sameName : ∀ item, (change item).string = item.string)
      (items : List CJSON) (index : Nat) :
      KeyedList.names (fun member => some member.string)
          (items.modify index change) =
        KeyedList.names (fun member => some member.string) items := by
    apply KeyedList.names_modify_of_eq
    intro item
    rw [sameName]
  cases effect with
  | keep => exact (List.append_nil _).symm
  | add newitem => simp [spellings, addItemToObject, addItemToArray]
  | write change index member there named sameName =>
      rw [if_neg (by decide), List.append_nil, spellings_eq_names,
        spellings_eq_names]
      exact modified sameName object.child index
  | replace newitem write which index member first there named sameName =>
      obtain ⟨old, oldThere, found, own, oldName⟩ := firstLike_of_indexLike first
      have exactName : old.name = some key.val := kept old found
      have sameString : some (some key) = some old.string := by
        obtain ⟨string, present, spelled⟩ := Option.map_eq_some_iff.mp exactName
        rw [present, Subtype.ext spelled]
      change _ = object.spellings ++ []
      rw [List.append_nil, spellings_eq_names, spellings_eq_names]
      have replaced :
          KeyedList.names (fun member : CJSON => some member.string)
              (object.child.set which { newitem with string := some key }) =
            KeyedList.names (fun member : CJSON => some member.string)
              object.child :=
        KeyedList.names_set_of_eq oldThere sameString
      dsimp only
      split
      · exact replaced
      · exact (modified sameName _ _).trans replaced

/-- Other names are looked up as before when a name is added at the end. -/
theorem firstExact_append_iff
    {object after : CJSON}
    {added : List (Option CString)}
    {string : CString}
    (spelled : after.spellings = object.spellings ++ added)
    (present : string.val ∈ object.names) :
    after.FirstExact string ↔ object.FirstExact string := by
  obtain ⟨index, found⟩ := exists_indexLike_of_mem present
  obtain ⟨member, there, like⟩ := exists_of_indexLike found
  have some : (object.spellings.find? fun own =>
      decide (strcasecmp own (some string) = 0)).isSome = true := by
    rw [List.find?_isSome]
    exact ⟨member.string, List.mem_map_of_mem (List.mem_of_getElem? there), like⟩
  rw [firstExact_iff, firstExact_iff, spelled, List.find?_append,
    Option.or_of_isSome some]

/-- Other names are members as before. -/
theorem mem_names_append_iff
    {object after : CJSON}
    {key : CString}
    {kind : EffectKind}
    {string : CString}
    (spelled : after.spellings =
      object.spellings ++ if kind = .add then [some key] else [])
    (other : string.val ≠ key.val) :
    string.val ∈ after.names ↔ string.val ∈ object.names := by
  rw [names_eq_filterMap, names_eq_filterMap, spelled, List.filterMap_append,
    List.mem_append, or_iff_left]
  split
  · simpa using other
  · exact List.not_mem_nil

/-- Installing under a name keeps names distinct unless the name replaces an
attribute of another spelling. -/
theorem installKind_keepsDistinct_iff
    {object : CJSON}
    {key : CString}
    (filled : key.val ≠ [])
    (copied : Bool) :
    (object.installKind key copied).KeepsDistinct object key ↔
      (key.val ∈ object.names → object.FirstExact key) := by
  unfold installKind
  by_cases present : key.val ∈ object.names
  · rw [if_pos ⟨filled, present⟩]
    exact ⟨fun first _ => first, fun held => held present⟩
  · rw [if_neg fun member => present member.2]
    refine iff_of_true ?_ fun held => absurd held present
    cases copied with
    | true => exact present
    | false => trivial

/-- A merge keeps names distinct exactly if none of its names replaces an
attribute of another spelling. -/
theorem namesDistinct_mergeItems_iff
    {items : List CJSON}
    {object after : CJSON}
    {next rest : List CJSON}
    (isObject : object.type = .object)
    (distinct : (KeyedList.names name items).Nodup)
    (called : mergeItems (object :: next) items = .ok (after :: rest)) :
    after.type = .object ∧
      (after.NamesDistinct ↔
        object.NamesDistinct ∧
          ∀ item ∈ items, ∀ key ∈ item.string,
            key.val ∈ object.names → object.FirstExact key) := by
  induction items generalizing object with
  | nil =>
      cases called
      exact ⟨isObject, by simp⟩
  | cons item items inductionHypothesis =>
      obtain ⟨key, middle, present, filled, effect, -, called⟩ :=
        mergeItems_cons isObject called
      have itemName : name item = some key.val := by
        rw [name, present, Option.map_some]
      have apart : (key.val :: KeyedList.names name items).Nodup := by
        simpa [KeyedList.names, itemName] using distinct
      obtain ⟨notAgain, restDistinct⟩ := List.nodup_cons.mp apart
      obtain ⟨afterObject, exactly⟩ :=
        inductionHypothesis (effect.type_eq.trans isObject) restDistinct called
      refine ⟨afterObject, ?_⟩
      have onItem : (∀ own ∈ item.string,
          own.val ∈ object.names → object.FirstExact own) ↔
            (key.val ∈ object.names → object.FirstExact key) := by
        simp [present]
      rw [exactly, effect.namesDistinct_iff, List.forall_mem_cons, onItem,
        and_assoc, installKind_keepsDistinct_iff filled]
      refine and_congr_right fun _ => and_congr_right fun kept => ?_
      have spelled := effect.spellings_eq
        ((installKind_keepsDistinct_iff filled _).mpr kept)
      refine forall₂_congr fun other isOther => forall₂_congr fun own named => ?_
      have otherName : name other = some own.val := by
        rw [name, Option.mem_def.mp named, Option.map_some]
      have different : own.val ≠ key.val := by
        intro equal
        exact notAgain (KeyedList.mem_names_iff.mpr
          ⟨other, isOther, otherName.trans (congrArg some equal)⟩)
      rw [mem_names_append_iff spelled different]
      exact imp_congr_right fun held => firstExact_append_iff spelled held

/-! ## Runs -/

/-- A call as it is made: the names of a source that is merged are distinct and
not empty. -/
abbrev NamedMutation :=
  { mutation : Mutation //
    ∀ source, mutation = .merge source →
      source.names.Nodup ∧ [] ∉ source.names }

/-- The item after a call. -/
def step (item : CJSON) (mutation : NamedMutation) : Option CJSON :=
  item.mutate mutation.val

/-- A call keeps names distinct exactly under its condition. -/
theorem namesDistinct_step_iff
    {object after : CJSON}
    {mutation : NamedMutation}
    (isObject : object.type = .object)
    (stepped : object.step mutation = some after) :
    after.type = .object ∧
      (after.NamesDistinct ↔
        object.NamesDistinct ∧ object.KeepsDistinct mutation.val) := by
  obtain ⟨mutation, wellNamed⟩ := mutation
  have single {key : CString} {kind : EffectKind}
      (only : object.effectOf mutation = some (key, kind)) :
      after.type = .object ∧
        (after.NamesDistinct ↔
          object.NamesDistinct ∧
            ∀ effect ∈ object.effectOf mutation,
              effect.2.KeepsDistinct object effect.1) := by
    have effect := effect_of_mutate isObject only stepped
    refine ⟨effect.type_eq.trans isObject, ?_⟩
    rw [effect.namesDistinct_iff, only]
    simp
  have params {key : CString} {kind : EffectKind}
      (effect : Effect object key kind after)
      (notReplace : kind ≠ .replace)
      (new : kind = .add → key.val ∉ object.names) :
      after.type = .object ∧
        (after.NamesDistinct ↔ object.NamesDistinct ∧ True) := by
    refine ⟨effect.type_eq.trans isObject, ?_⟩
    have kept : kind.KeepsDistinct object key := by
      cases kind with
      | keep | write => trivial
      | add => exact new rfl
      | replace => exact absurd rfl notReplace
    rw [effect.namesDistinct_iff, and_iff_left kept, and_true]
  cases mutation with
  | setInt | setBool | setDouble | setString | incrInt | incrDouble | copyItem =>
      exact single rfl
  | merge source =>
      obtain ⟨next, called⟩ := mutate_eq_some_iff.mp stepped
      obtain ⟨⟨answer, chain⟩, called, same⟩ := Outcome.map_eq_ok_iff.mp called
      obtain ⟨merged, called, rest⟩ := Outcome.bind_eq_ok_iff.mp called
      cases rest
      subst same
      exact namesDistinct_mergeItems_iff isObject (wellNamed source rfl).1 called
  | addParamsString entries | addParamsDouble entries =>
      obtain ⟨next, called⟩ := mutate_eq_some_iff.mp stepped
      obtain ⟨⟨answer, chain⟩, called, same⟩ := Outcome.map_eq_ok_iff.mp called
      obtain ⟨changed, key, kind, sameChain, effect, notReplace, new⟩ :=
        effect_of_addParamsMap isObject called
      obtain ⟨rfl, -⟩ := List.cons.inj (same.symm.trans sameChain)
      exact params effect notReplace new

/-- The names of an object stay distinct along a run of calls exactly when every
call adds new names and replaces no attribute of another spelling. -/
theorem namesDistinct_along_iff
    {object final : CJSON}
    {mutations : List NamedMutation}
    (isObject : object.type = .object)
    (distinct : object.NamesDistinct)
    (performed : TransitionSystem.run step object mutations = some final) :
    TransitionSystem.Along step NamesDistinct object mutations ↔
      TransitionSystem.Guarded step
        (fun object mutation => object.KeepsDistinct mutation.val)
        object mutations := by
  have staysObject (object : CJSON) (mutation : NamedMutation) (after : CJSON)
      (isObject : object.type = .object)
      (stepped : object.step mutation = some after) :
      after.type = .object :=
    (namesDistinct_step_iff isObject stepped).1
  have exactly (object : CJSON) (mutation : NamedMutation) (after : CJSON)
      (isObject : object.type = .object) (distinct : object.NamesDistinct)
      (stepped : object.step mutation = some after) :
      after.NamesDistinct ↔ object.KeepsDistinct mutation.val := by
    rw [(namesDistinct_step_iff isObject stepped).2, and_iff_right distinct]
  exact TransitionSystem.along_iff_guarded staysObject exactly isObject distinct
    performed

/-- `setAttributeValue_String` as a call. -/
def NamedMutation.setString (key valuestring : Bytes) : NamedMutation :=
  ⟨.setString key valuestring, nofun⟩

/-- `{"a":"x","A":"y"}`. -/
def bothCases : CJSON :=
  { createObject with
    child :=
      [{ createString (keyOf ['x']) with string := some (keyOf ['a']) },
        { createString (keyOf ['y']) with string := some (keyOf ['A']) }] }

/-- The attribute that comes first is set, and one is added. -/
theorem namesDistinct_along_first_case :
    TransitionSystem.Along step NamesDistinct bothCases
      [.setString (ascii ['a']) (ascii ['z']),
        .setString (ascii ['b']) (ascii ['z'])] := by
  refine (@namesDistinct_along_iff bothCases _ _ rfl (by decide) rfl).mpr ?_
  refine ⟨?_, fun next stepped => ⟨?_, fun _ _ => trivial⟩⟩
  · rintro effect ⟨rfl⟩
    decide
  · obtain rfl := Option.some.inj stepped
    rintro effect ⟨rfl⟩
    decide

/-- Setting the attribute `A` replaces the attribute `a` and leaves two
attributes `A`. -/
theorem not_namesDistinct_along_second_case :
    ¬ TransitionSystem.Along step NamesDistinct bothCases
      [.setString (ascii ['A']) (ascii ['z'])] := by
  intro along
  have last : NamesDistinct _ := along.2 _ rfl
  revert last
  decide

end CJSON
end ProtobufSandbox
