import ProtobufSandbox.Json.CaseNames
import ProtobufSandbox.Json.RoundTrip

/-!
# Merged objects

`mergeJSONObjects` as a union: the members of the target, each as the source has
it, and behind them the other members of the source. The loop finds by an exact
comparison and replaces by one that ignores case; what carries it is that the
target keeps names that are distinct ignoring case and spelled as in the rest of
the source.
-/

namespace ProtobufSandbox
namespace CJSON

/-! ## Copies -/

/-- What is installed for an item: the same scalar, or the tree that is parsed
back from the text of an array or object. -/
inductive IsCopy (item : CJSON) : CJSON → Prop
  | scalar
      {copy : CJSON}
      (scalar : ¬ item.IsContainer)
      (string : copy.string = item.string)
      (type : copy.type = item.type)
      (number : item.type = .number →
        copy.valuedouble = item.valuedouble ∧
          copy.valueint = toInt item.valuedouble)
      (text : item.type = .string → copy.valuestring = item.valuestring) :
      IsCopy item copy
  | tree
      {tree : CJSON}
      (container : item.IsContainer)
      (parsed : parse (item.print ++ [0]) = .ok tree) :
      IsCopy item { tree with string := item.string }

theorem IsCopy.string_eq
    {item copy : CJSON}
    (isCopy : IsCopy item copy) :
    copy.string = item.string := by
  cases isCopy with
  | scalar _ string => exact string
  | tree => rfl

theorem IsCopy.name_eq
    {item copy : CJSON}
    (isCopy : IsCopy item copy) :
    copy.name = item.name :=
  congrArg (Option.map Subtype.val) isCopy.string_eq

/-- Copies have the names of the items. -/
theorem names_eq_of_isCopy
    {items copies : List CJSON}
    (areCopies : List.Forall₂ IsCopy items copies) :
    KeyedList.names name copies = KeyedList.names name items := by
  induction areCopies with
  | nil => rfl
  | cons isCopy _ inductionHypothesis =>
      unfold KeyedList.names at inductionHypothesis ⊢
      rw [List.filterMap_cons, List.filterMap_cons, isCopy.name_eq,
        inductionHypothesis]

/-- An item that is written in full is copied. -/
theorem exists_copyOf
    {item : CJSON}
    (printable : item.Printable) :
    ∃ new, copyOf item = .ok (some new) ∧
      IsCopy item { new with string := item.string } := by
  unfold copyOf copyOfWith
  cases type : item.type with
  | false | true | null =>
      exact ⟨_, rfl, .scalar (by simp [IsContainer, type]) rfl type.symm
        (fun number => absurd (type.symm.trans number) (by decide))
        fun string => absurd (type.symm.trans string) (by decide)⟩
  | number =>
      exact ⟨_, rfl, .scalar (by simp [IsContainer, type]) rfl type.symm
        (fun _ => ⟨rfl, rfl⟩)
        fun string => absurd (type.symm.trans string) (by decide)⟩
  | string =>
      obtain ⟨valuestring, present⟩ :=
        Option.isSome_iff_exists.mp (printable.node.string type)
      simp only [present]
      exact ⟨_, rfl, .scalar (by simp [IsContainer, type]) rfl type.symm
        (fun number => absurd (type.symm.trans number) (by decide))
        fun _ => present.symm⟩
  | array | object =>
      have notNumber : item.type = .number → Delimited [0] :=
        fun number => absurd (type.symm.trans number) (by decide)
      obtain ⟨tree, parsed, -, -⟩ :=
        parse_printValue_reread printable true notNumber
      have container : item.IsContainer := by simp [IsContainer, type]
      refine ⟨tree, ?_, .tree container parsed⟩
      have read : parse (item.printValueWith printNumber 0 true ++ [0]) = .ok tree :=
        parsed
      rw [parseOrNull, read]

/-! ## The loop -/

/-- Lists of members that merge as a union: the names are distinct ignoring case
in each, those of the second are not empty, and a name of both is spelled alike. -/
structure Mergeable (items others : List CJSON) : Prop where
  distinct : CaseDistinct items
  othersDistinct : CaseDistinct others
  named : ∀ other ∈ others, ∃ key, other.name = some key ∧ key ≠ []
  spelledAlike : ∀ old ∈ items, ∀ other ∈ others,
    old.lowerName = other.lowerName → old.name = other.name
  printable : ∀ other ∈ others, other.Printable

/-- A name that is distinct ignoring case is distinct. -/
theorem CaseDistinct.names_nodup
    {items : List CJSON}
    (distinct : CaseDistinct items) :
    (KeyedList.names name items).Nodup := by
  have lower : KeyedList.names lowerName items =
      (KeyedList.names name items).map (List.map toLower) :=
    (List.map_filterMap).symm
  rw [CaseDistinct, lower] at distinct
  exact distinct.of_map

/-- One turn puts the copy in its place. -/
theorem install_of_mergeable
    {object item new : CJSON}
    {items : List CJSON}
    {key : CString}
    (isObject : object.type = .object)
    (mergeable : Mergeable object.child (item :: items))
    (named : item.string = some key)
    (next : List CJSON) :
    install (object :: next) key (some new) =
      .ok ({ object with
        child := KeyedList.put name object.child
          { new with string := some key } } :: next) := by
  have isName : item.name = some key.val := congrArg (Option.map Subtype.val) named
  obtain ⟨own, sameName, notEmpty⟩ :=
    mergeable.named item List.mem_cons_self
  obtain rfl : key.val = own := Option.some.inj (isName.symm.trans sameName)
  unfold install
  rw [doesAttributeExist_of_container (Or.inr isObject), Outcome.ok_bind]
  by_cases present : key.val ∈ object.names
  · obtain ⟨member, isMember, memberName⟩ := KeyedList.mem_names_iff.mp present
    obtain ⟨before, behind, split⟩ := List.append_of_mem isMember
    have first :=
      indexLike_of_caseDistinct mergeable.distinct split memberName
    have distinct := mergeable.distinct.names_nodup
    rw [split] at distinct
    have put := KeyedList.put_of_split distinct memberName
      (show name { new with string := some key } = some key.val from rfl)
    have member : object.HasMember key := ⟨notEmpty, present⟩
    simp only [decide_eq_true member, if_true, replaceItemInObject, first,
      Outcome.ok_bind, replaceItemInArray]
    rw [split, put, List.set_append_right _ _ (Nat.le_refl _), Nat.sub_self]
    rfl
  · have put := KeyedList.put_of_not_mem
      (show name { new with string := some key } = some key.val from rfl) present
    have absent : ¬ object.HasMember key := fun member => present member.2
    simp only [decide_eq_false absent, Bool.false_eq_true, if_false]
    rw [put]
    rfl

/-- The members with a copy among them merge with the rest of the source. -/
theorem Mergeable.put
    {items others : List CJSON}
    {item copy : CJSON}
    (mergeable : Mergeable items (item :: others))
    (sameName : copy.name = item.name) :
    Mergeable (KeyedList.put name items copy) others := by
  obtain ⟨key, itemName, -⟩ := mergeable.named item List.mem_cons_self
  have sameLower : copy.lowerName = item.lowerName :=
    congrArg (Option.map (List.map toLower)) sameName
  have distinct := mergeable.othersDistinct
  rw [CaseDistinct, KeyedList.names, List.filterMap_cons,
    lowerName_of_name itemName] at distinct
  obtain ⟨apart, othersDistinct⟩ := List.nodup_cons.mp distinct
  refine
    { distinct := ?_
      othersDistinct := othersDistinct
      named := fun other isOther =>
        mergeable.named other (List.mem_cons_of_mem _ isOther)
      spelledAlike := fun old isOld other isOther same => ?_
      printable := fun other isOther =>
        mergeable.printable other (List.mem_cons_of_mem _ isOther) }
  · by_cases present : ∃ old ∈ items, old.name = copy.name
    · have unchanged : KeyedList.names lowerName (KeyedList.put name items copy) =
          KeyedList.names lowerName items := by
        rw [KeyedList.put, if_pos present, KeyedList.names, List.filterMap_map]
        refine List.filterMap_congr fun old _ => ?_
        rw [Function.comp_apply]
        split
        · next same => exact congrArg (Option.map (List.map toLower)) same.symm
        · rfl
      rw [CaseDistinct, unchanged]
      exact mergeable.distinct
    · rw [KeyedList.put, if_neg present, CaseDistinct,
        KeyedList.nodup_names_concat_iff
          (sameLower.trans (lowerName_of_name itemName))]
      refine ⟨mergeable.distinct, fun like => ?_⟩
      obtain ⟨old, isOld, oldLike⟩ := KeyedList.mem_names_iff.mp like
      refine present ⟨old, isOld, ?_⟩
      rw [sameName]
      exact mergeable.spelledAlike old isOld item List.mem_cons_self
        (oldLike.trans (lowerName_of_name itemName).symm)
  · rcases KeyedList.mem_put isOld with before | rfl
    · exact mergeable.spelledAlike old before other
        (List.mem_cons_of_mem _ isOther) same
    · refine absurd (KeyedList.mem_names_iff.mpr ⟨other, isOther, ?_⟩) apart
      rw [← same, sameLower, lowerName_of_name itemName]

/-- The loop merges as a union with the copies. -/
theorem mergeItems_eq_union
    {object : CJSON}
    {items : List CJSON}
    (isObject : object.type = .object)
    (mergeable : Mergeable object.child items)
    (next : List CJSON) :
    ∃ copies, List.Forall₂ IsCopy items copies ∧
      mergeItems (object :: next) items =
        .ok ({ object with
          child := KeyedList.union name object.child copies } :: next) := by
  induction items generalizing object with
  | nil =>
      refine ⟨[], .nil, ?_⟩
      rw [KeyedList.union_nil, mergeItems]
      cases object
      rfl
  | cons item items inductionHypothesis =>
      obtain ⟨own, itemName, notEmpty⟩ := mergeable.named item List.mem_cons_self
      obtain ⟨key, present, rfl⟩ := Option.map_eq_some_iff.mp itemName
      obtain ⟨new, copied, isCopy⟩ :=
        exists_copyOf (mergeable.printable item List.mem_cons_self)
      have installed : install (object :: next) key (some new) = _ :=
        install_of_mergeable isObject mergeable present next
      rw [present] at isCopy
      obtain ⟨copies, areCopies, merged⟩ :=
        @inductionHypothesis
          { object with
            child := KeyedList.put name object.child
              { new with string := some key } }
          isObject (mergeable.put isCopy.name_eq)
      refine ⟨{ new with string := some key } :: copies, .cons isCopy areCopies, ?_⟩
      have fresh : key.val ∉ KeyedList.names name copies := by
        have distinct := mergeable.othersDistinct.names_nodup
        rw [names_eq_of_isCopy areCopies]
        rw [KeyedList.names, List.filterMap_cons, itemName] at distinct
        exact (List.nodup_cons.mp distinct).1
      rw [mergeItems, present]
      simp only [if_neg notEmpty, copied, installed, Outcome.ok_bind, merged]
      rw [@KeyedList.union_cons _ _ _ name _ _ key.val rfl fresh]

/-- A merge leaves the members of the target in their order, each that the source
names as a copy of what the source has, and behind them copies of the other
members of the source in their order. -/
theorem mergeJSONObjects_eq_union
    {target source : CJSON}
    (isObject : target.type = .object)
    (mergeable : Mergeable target.child source.child)
    (next siblings : List CJSON) :
    ∃ copies, List.Forall₂ IsCopy source.child copies ∧
      mergeJSONObjects (target :: next) (source :: siblings) =
        .ok (true, { target with
          child := KeyedList.union name target.child copies } :: next) := by
  obtain ⟨copies, areCopies, merged⟩ :=
    mergeItems_eq_union isObject mergeable next
  refine ⟨copies, areCopies, ?_⟩
  rw [mergeJSONObjects, merged]
  rfl

/-- An object with a member that a source overrides and one that it does not. -/
def mergeTarget : CJSON :=
  (createObject.addItemToObject (keyOf ['a']) (some createTrue)).addItemToObject
    (keyOf ['b']) (some createNull)

/-- A source with an object under an old name and a string under a new one. -/
def mergeSource : CJSON :=
  (createObject.addItemToObject (keyOf ['a']) (some createObject)).addItemToObject
    (keyOf ['c']) (some (createString (keyOf ['x'])))

theorem mergeable_mergeSource : Mergeable mergeTarget.child mergeSource.child where
  distinct := by decide
  othersDistinct := by decide
  named := List.forall_mem_cons.mpr
    ⟨⟨_, rfl, by decide⟩, List.forall_mem_singleton.mpr ⟨_, rfl, by decide⟩⟩
  spelledAlike := by decide
  printable := by
    have wellFormed : mergeSource.WellFormed := by decide
    exact fun other isOther =>
      wellFormed.printable.of_mem_child (Or.inr rfl) isOther

/-- One member is overridden, one is kept and one is added. -/
theorem mergeJSONObjects_mergeSource :
    ∃ copies, List.Forall₂ IsCopy mergeSource.child copies ∧
      mergeJSONObjects [mergeTarget] [mergeSource] =
        .ok (true, [{ mergeTarget with
          child := KeyedList.union name mergeTarget.child copies }]) :=
  mergeJSONObjects_eq_union rfl mergeable_mergeSource [] []

end CJSON
end ProtobufSandbox
