import ProtobufSandbox.Json.Mutation

/-!
# Names that are distinct ignoring case

Where the names of an object are distinct in lower case, the lookup of `cJSON`,
which ignores case, finds the member with exactly the name.
-/

namespace ProtobufSandbox
namespace CJSON

/-- A name in lower case. -/
def lowerName (item : CJSON) : Option Bytes :=
  item.name.map (List.map toLower)

/-- The names in a chain are pairwise distinct ignoring case. -/
def CaseDistinct (items : List CJSON) : Prop :=
  (KeyedList.names lowerName items).Nodup

instance CaseDistinct.decidable (items : List CJSON) :
    Decidable (CaseDistinct items) :=
  inferInstanceAs (Decidable (List.Nodup _))

/-- Two strings compare equal ignoring case if they are equal in lower case. -/
theorem strcasecmp_eq_zero_iff (s1 s2 : CString) :
    strcasecmp (some s1) (some s2) = 0 ↔ s1.val.map toLower = s2.val.map toLower :=
  strcasecmpLoop_eq_zero_iff s1.property s2.property

/-- The lookup of `cJSON` compares names in lower case. -/
theorem namedLike_iff (string : CString) (item : CJSON) :
    item.namedLike string = true ↔
      item.lowerName = some (string.val.map toLower) := by
  rw [namedLike, decide_eq_true_iff]
  unfold lowerName name
  cases item.string with
  | none => simp [strcasecmp]
  | some own => simp [strcasecmp_eq_zero_iff]

/-- An item with a name has it in lower case as well. -/
theorem lowerName_of_name
    {item : CJSON}
    {key : Bytes}
    (named : item.name = some key) :
    item.lowerName = some (key.map toLower) := by
  rw [lowerName, named, Option.map_some]

/-- Nothing is found where no name is like it. -/
theorem indexLike_eq_none_iff {object : CJSON} {string : CString} :
    object.indexLike string = none ↔
      string.val.map toLower ∉ KeyedList.names lowerName object.child := by
  rw [indexLike, List.findIdx?_eq_none_iff, KeyedList.mem_names_iff]
  simp only [Bool.eq_false_iff, ne_eq, namedLike_iff, not_exists, not_and]

/-- A lookup starts at the first member that it finds. -/
theorem getObjectItem_append
    {object member : CJSON}
    {string : CString}
    {before behind : List CJSON}
    (split : object.child = before ++ member :: behind)
    (like : member.namedLike string = true)
    (none : ∀ item ∈ before, item.namedLike string = false) :
    object.getObjectItem string = member :: behind := by
  rw [getObjectItem, split, List.dropWhile_append_of_pos,
    List.dropWhile_cons_of_neg]
  · rw [like]
    decide
  · intro item isBefore
    rw [none item isBefore]
    rfl

/-- Where names are distinct ignoring case, a member is found under its name. -/
theorem getObjectItem_of_caseDistinct
    {object member : CJSON}
    {string : CString}
    {before behind : List CJSON}
    (distinct : CaseDistinct object.child)
    (split : object.child = before ++ member :: behind)
    (named : member.name = some string.val) :
    object.getObjectItem string = member :: behind := by
  refine getObjectItem_append split (namedLike_of_name named) fun item isBefore => ?_
  rw [CaseDistinct, split] at distinct
  have apart := KeyedList.not_mem_names_of_nodup distinct (lowerName_of_name named)
  rw [Bool.eq_false_iff, ne_eq, namedLike_iff]
  exact fun like => apart (KeyedList.mem_names_iff.mpr ⟨item, isBefore, like⟩)

/-- It is found at its place. -/
theorem indexLike_of_caseDistinct
    {object member : CJSON}
    {string : CString}
    {before behind : List CJSON}
    (distinct : CaseDistinct object.child)
    (split : object.child = before ++ member :: behind)
    (named : member.name = some string.val) :
    object.indexLike string = some before.length := by
  rw [CaseDistinct, split] at distinct
  have apart := KeyedList.not_mem_names_of_nodup distinct (lowerName_of_name named)
  have none : ∀ item ∈ before, item.namedLike string = false := by
    intro item isBefore
    rw [Bool.eq_false_iff, ne_eq, namedLike_iff]
    exact fun like => apart (KeyedList.mem_names_iff.mpr ⟨item, isBefore, like⟩)
  rw [indexLike, split, List.findIdx?_append, List.findIdx?_eq_none_iff.mpr none,
    List.findIdx?_cons, namedLike_of_name named]
  simp

end CJSON
end ProtobufSandbox
