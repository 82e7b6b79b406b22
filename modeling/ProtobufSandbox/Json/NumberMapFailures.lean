import ProtobufSandbox.Json.KeyUniqueness
import ProtobufSandbox.Json.NumberMaps

/-!
# Keys that `JSONToMap_Int_Double` reads

The reader of integer keys writes to its map before it meets a number that it rejects,
which has no name or one that begins with no integer, and it accepts every name that
begins with an integer, whatever stands around it. It
leaves a map alone when it fails, and accepts only what the writer writes, exactly if
neither matters.
-/

namespace ProtobufSandbox
namespace CJSON

open StringStream

variable {object : CJSON} {next : List CJSON} {map_double result : OrderedMap Int32 Rat}

/-- The reader of integer keys takes them from the names of the numbers. -/
theorem jsonToMapIntDouble_eq :
    jsonToMapIntDouble (object :: next) map_double =
      readNumbers scanName object.numberMembers map_double :=
  jsonToMapLoop_eq readInt_writePointer_new object.child .new map_double

/-! ## Failures -/

/-- A call that returns false has left the map alone. -/
def LeavesMapOnFailure (object : CJSON) (map_double : OrderedMap Int32 Rat) : Prop :=
  ∀ next result, jsonToMapIntDouble (object :: next) map_double = (false, result) →
    result = map_double

/-- The last value of each key that is read in front of the first name that is
rejected is its value in the map. -/
def FrontInMap (object : CJSON) (map_double : OrderedMap Int32 Rat) : Prop :=
  ∀ before member after entries,
    object.numberMembers = before ++ member :: after → Rejected scanName member →
      ReadAs scanName before entries →
        ∀ key value, OrderedMap.lookup key entries.reverse = some value →
          map_double.find key = some value

/-- The reader leaves the map alone when it fails exactly if what it has read by then
is in the map. -/
theorem leavesMapOnFailure_iff (object : CJSON) (map_double : OrderedMap Int32 Rat) :
    object.LeavesMapOnFailure map_double ↔ object.FrontInMap map_double := by
  simp only [LeavesMapOnFailure, FrontInMap, jsonToMapIntDouble_eq,
    readNumbers_eq_false_iff, ← OrderedMap.putAll_eq_self_iff]
  constructor
  · intro leaves before member after entries split rejected read
    exact leaves [] _ ⟨before, member, after, entries, split, rejected, read, rfl⟩
  · rintro front - _ ⟨before, member, after, entries, split, rejected, read, rfl⟩
    exact front before member after entries split rejected read

/-- A number under the name "1" in front of one under the name "x". -/
theorem not_leavesMapOnFailure_x :
    ¬ LeavesMapOnFailure
      ((createObject.addItemToObject (keyOf ['1']) (some (createNumber 5))).addItemToObject
        (keyOf ['x']) (some (createNumber 6))) .empty := by
  intro leaves
  cases leaves [] _ rfl

/-! ## Strict keys -/

/-- A call that returns true has read names that the writer writes; and if the names are
distinct, it makes of each number an entry of its own. -/
def AcceptsStrictly (object : CJSON) : Prop :=
  (∀ next map_double result,
    jsonToMapIntDouble (object :: next) map_double = (true, result) →
      ∀ member ∈ object.numberMembers, ∃ key, member.name = some (formatInt key)) ∧
    (object.NamesDistinct → ∀ next result,
      jsonToMapIntDouble (object :: next) .empty = (true, result) →
        result.entries.length = object.numberMembers.length ∧
          ∀ member ∈ object.numberMembers, ∃ key,
            member.name = some (formatInt key) ∧ result.find key = some member.valuedouble)

/-- Some number has a name that begins with no integer, or all have names that the
writer writes. -/
def StrictOrRejected (object : CJSON) : Prop :=
  (∃ member ∈ object.numberMembers, ∀ name key, member.name = some name →
    ¬ BeginsWithInt name key) ∨
    ∀ member ∈ object.numberMembers, ∃ key, member.name = some (formatInt key)

/-- The key that a member is read as is the integer that its name begins with. -/
theorem memberKey_eq_some_iff {member : CJSON} {key : Int32} :
    memberKey scanName member = some key ↔
      ∃ name, member.name = some name ∧ BeginsWithInt name key := by
  simp only [memberKey, scanName, Option.bind_eq_some_iff, scanInt_eq_some_iff]

/-- The name that the writer writes is read as its key. -/
theorem memberKey_formatInt
    {member : CJSON}
    {key : Int32}
    (named : member.name = some (formatInt key)) :
    memberKey scanName member = some key :=
  memberKey_eq_some_iff.mpr ⟨_, named, beginsWithInt_formatInt key⟩

/-- Entries that are read from names that the writer writes have these names. -/
theorem names_of_readAs
    {members : List CJSON}
    {entries : List (Int32 × Rat)}
    (read : ReadAs scanName members entries)
    (canonical : ∀ member ∈ members, ∃ key, member.name = some (formatInt key)) :
    members.filterMap name = entries.map fun entry => formatInt entry.1 := by
  induction entries generalizing members with
  | nil =>
      cases read
      rfl
  | cons entry entries inductionHypothesis =>
      cases read with
      | cons first later =>
          rename_i member members
          obtain ⟨⟨key, named⟩, others⟩ := List.forall_mem_cons.mp canonical
          have same : key = entry.1 :=
            Option.some.inj ((memberKey_formatInt named).symm.trans first.1)
          rw [List.filterMap_cons_some named, List.map_cons, same,
            inductionHypothesis later others]

/-- Among numbers whose names are distinct and written by the writer each has an entry
of its own. -/
theorem entries_of_distinct
    {members : List CJSON}
    {entries : List (Int32 × Rat)}
    (read : ReadAs scanName members entries)
    (canonical : ∀ member ∈ members, ∃ key, member.name = some (formatInt key))
    (distinct : (members.filterMap name).Nodup) :
    (OrderedMap.empty.putAll entries).entries.length = members.length ∧
      ∀ member ∈ members, ∃ key, member.name = some (formatInt key) ∧
        (OrderedMap.empty.putAll entries).find key = some member.valuedouble := by
  have keys : (entries.map Prod.fst).Nodup := by
    rw [names_of_readAs read canonical, ← Function.comp_def, ← List.map_map] at distinct
    exact distinct.of_map
  have perm : (OrderedMap.empty.putAll entries).entries.Perm entries :=
    OrderedMap.perm_putAll keys fun entry _ => rfl
  refine ⟨perm.length_eq.trans read.length_eq.symm, fun member isMember => ?_⟩
  obtain ⟨key, named⟩ := canonical member isMember
  obtain ⟨other, readOther, found⟩ := read.exists_entry isMember
  obtain rfl : key = other :=
    Option.some.inj ((memberKey_formatInt named).symm.trans readOther)
  exact ⟨key, named, OrderedMap.find_eq_some_iff.mpr (perm.mem_iff.mpr found)⟩

/-- The reader accepts only what the writer writes exactly if some name is rejected or
all names are written so. -/
theorem acceptsStrictly_iff (object : CJSON) :
    object.AcceptsStrictly ↔ object.StrictOrRejected := by
  simp only [AcceptsStrictly, jsonToMapIntDouble_eq, readNumbers_eq_true_iff]
  constructor
  · rintro ⟨strict, -⟩
    by_cases read : ∀ member ∈ object.numberMembers, ∃ key,
        memberKey scanName member = some key
    · obtain ⟨entries, readAs⟩ := exists_readAs read
      exact .inr (strict [] .empty _ ⟨entries, readAs, rfl⟩)
    · push Not at read
      obtain ⟨member, isMember, rejected⟩ := read
      refine .inl ⟨member, isMember, fun name key named begins => ?_⟩
      exact rejected key (memberKey_eq_some_iff.mpr ⟨name, named, begins⟩)
  · rintro (⟨member, isMember, rejected⟩ | canonical)
    · have never (entries : List (Int32 × Rat))
          (read : ReadAs scanName object.numberMembers entries) : False := by
        obtain ⟨key, found, -⟩ := read.exists_entry isMember
        obtain ⟨name, named, begins⟩ := memberKey_eq_some_iff.mp found
        exact rejected name key named begins
      constructor
      · rintro - - - ⟨entries, read, -⟩
        exact (never entries read).elim
      · rintro - - - ⟨entries, read, -⟩
        exact (never entries read).elim
    · refine ⟨fun _ _ _ _ => canonical, ?_⟩
      rintro distinct - _ ⟨entries, read, rfl⟩
      refine entries_of_distinct read canonical (List.Nodup.sublist ?_ distinct)
      exact (List.filter_sublist).filterMap _

/-- Two numbers, under the names "1" and "01". -/
theorem not_acceptsStrictly_zero :
    ¬ AcceptsStrictly
      ((createObject.addItemToObject (keyOf ['1']) (some (createNumber 5))).addItemToObject
        (keyOf ['0', '1']) (some (createNumber 6))) := by
  rintro ⟨-, distinct⟩
  cases (distinct (by decide) [] _ rfl).1

end CJSON
end ProtobufSandbox
