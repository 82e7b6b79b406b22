import ProtobufSandbox.Json.DiffTurn
import ProtobufSandbox.Json.Merge
import ProtobufSandbox.Json.NotFinite
import ProtobufSandbox.Json.Shape

/-!
# Loops that end

`mergeJSONObjects` and `diffJSONObjects` on trees as `cJSON_Parse` returns them. An
item without a name, or with an empty one, is met by a `continue` that comes back
to it. A merge also ends badly where an array or object that is not read back is to
replace a member, and a diff where the comparison at an item fails.
-/

namespace ProtobufSandbox
namespace CJSON

/-! ## The loop of a merge -/

/-- The loop of `mergeJSONObjects`, which spends fuel in every turn; nothing stands
for a loop that has spent it all. The printer writes numbers with `number`. -/
def mergeLoop (number : CJSON → Bytes) :
    Nat → List CJSON → List CJSON → Option (Except AttributeError (List CJSON))
  | 0, _, _ => none
  | _ + 1, targetJSONObj, [] => some (.ok targetJSONObj)
  | fuel + 1, targetJSONObj, item :: next =>
      match item.string with
      -- `continue` comes back to the same item.
      | none => mergeLoop number fuel targetJSONObj (item :: next)
      | some string =>
          if string.val = [] then mergeLoop number fuel targetJSONObj (item :: next)
          else
            match copyOfWith number item >>= install targetJSONObj string with
            | .error error => some (.error error)
            | .ok targetJSONObj => mergeLoop number fuel targetJSONObj next

/-- The loop comes to the end of the items. -/
def MergeEnds (target items : List CJSON) : Prop :=
  ∃ fuel after, mergeLoop printDouble fuel target items = some (.ok after)

/-- Merging with this source ends. -/
def MergeTerminates (target source : CJSON) : Prop :=
  MergeEnds [target] source.child

/-- Comparing these trees ends. -/
def DiffTerminates (JSONObj1 JSONObj2 JSONObjDiff : CJSON) : Prop :=
  ∃ fuel result, diffJSONObjects fuel [JSONObj1] [JSONObj2] JSONObjDiff = .ok result

section Turns

variable {number : CJSON → Bytes} {item : CJSON}

/-- At an item without a name the merge stays. -/
theorem mergeLoop_of_nameless
    (nameless : ¬ item.HasName)
    (fuel : Nat)
    (target next : List CJSON) :
    mergeLoop number fuel target (item :: next) = none := by
  induction fuel with
  | zero => rfl
  | succ fuel inductionHypothesis =>
      cases present : item.string with
      | none =>
          simp only [mergeLoop, present]
          exact inductionHypothesis
      | some string =>
          have empty : string.val = [] := by
            by_contra notEmpty
            exact nameless ((hasName_iff item).mpr ⟨string, present, notEmpty⟩)
          simp only [mergeLoop, present, if_pos empty]
          exact inductionHypothesis

section Named

variable {key : CString} (present : item.string = some key) (notEmpty : key.val ≠ [])
variable {target : List CJSON}

include present notEmpty

/-- One turn at an item with a name. -/
theorem mergeLoop_cons
    {middle : List CJSON}
    (installed : (copyOfWith number item >>= install target key) = .ok middle)
    (fuel : Nat)
    (next : List CJSON) :
    mergeLoop number (fuel + 1) target (item :: next) =
      mergeLoop number fuel middle next := by
  simp only [mergeLoop, present, if_neg notEmpty, installed]

/-- A turn that fails. -/
theorem mergeLoop_cons_error
    {error : AttributeError}
    (failed : (copyOfWith number item >>= install target key) = .error error)
    (fuel : Nat)
    (next : List CJSON) :
    mergeLoop number (fuel + 1) target (item :: next) = some (.error error) := by
  simp only [mergeLoop, present, if_neg notEmpty, failed]

/-- A merge that comes to an item with a name ends if the turn there works and the rest
ends. -/
theorem mergeEnds_cons_iff (next : List CJSON) :
    MergeEnds target (item :: next) ↔
      ∃ middle, (copyOfWith printDouble item >>= install target key) = .ok middle ∧
        MergeEnds middle next := by
  constructor
  · rintro ⟨fuel, after, ended⟩
    cases fuel with
    | zero => cases ended
    | succ fuel =>
        cases installed : copyOfWith printDouble item >>= install target key with
        | ok middle =>
            rw [mergeLoop_cons present notEmpty installed] at ended
            exact ⟨middle, rfl, fuel, after, ended⟩
        | error error =>
            rw [mergeLoop_cons_error present notEmpty installed] at ended
            cases ended
  · rintro ⟨middle, installed, fuel, after, ended⟩
    exact ⟨fuel + 1, after, (mergeLoop_cons present notEmpty installed fuel next).trans ended⟩

end Named

/-- A merge that ends has come to names only. -/
theorem not_mergeEnds_of_nameless
    (nameless : ¬ item.HasName)
    (target next : List CJSON) :
    ¬ MergeEnds target (item :: next) := by
  rintro ⟨fuel, after, ended⟩
  rw [mergeLoop_of_nameless nameless] at ended
  cases ended

/-- A loop that ends does what the loop without fuel does, if all numbers are
finite. -/
theorem mergeItems_of_mergeLoop
    {fuel : Nat}
    {target items : List CJSON}
    {outcome : Except AttributeError (List CJSON)}
    (ended : mergeLoop printNumber fuel target items = some outcome) :
    mergeItems target items = outcome := by
  induction fuel generalizing target items with
  | zero => cases ended
  | succ fuel inductionHypothesis =>
      cases items with
      | nil => exact Option.some.inj ended
      | cons item items =>
          by_cases named : item.HasName
          · obtain ⟨key, present, notEmpty⟩ := (hasName_iff item).mp named
            have isKey : item.string = some key := present
            have turn : mergeItems target (item :: items) =
                (copyOf item >>= install target key) >>= fun middle =>
                  mergeItems middle items := by
              simp only [mergeItems, isKey, if_neg notEmpty, bind_assoc]
            rw [turn]
            cases installed : copyOf item >>= install target key with
            | ok middle =>
                rw [mergeLoop_cons isKey notEmpty installed] at ended
                exact inductionHypothesis ended
            | error error =>
                rw [mergeLoop_cons_error isKey notEmpty installed] at ended
                exact Option.some.inj ended
          · rw [mergeLoop_of_nameless named] at ended
            cases ended

end Turns

/-! ## Copies -/

/-- An array or object that is printed, but not read back. -/
def NotReadBack (item : CJSON) : Prop :=
  item.IsContainer ∧ ¬ item.HoldsFinite

instance (item : CJSON) : Decidable item.NotReadBack :=
  inferInstanceAs (Decidable (_ ∧ _))

/-- A parsed tree is written in full. -/
theorem Parsed.printable
    {item : CJSON}
    (parsed : item.Parsed) :
    item.Printable :=
  fun node below =>
    { string := (parsed node below).string
      members := (parsed node below).members }

/-- The copy of any other item is an item. -/
theorem exists_copyOf_printDouble
    {item : CJSON}
    (printable : item.Printable)
    (readBack : ¬ item.NotReadBack) :
    ∃ new, copyOfWith printDouble item = .ok (some new) := by
  obtain ⟨new, copied, -⟩ := exists_copyOf printable
  refine ⟨new, ?_⟩
  rw [← copied]
  by_cases container : item.IsContainer
  · have finite : item.HoldsFinite := by
      by_contra notFinite
      exact readBack ⟨container, notFinite⟩
    rw [copyOf, copyOfWith_container container, copyOfWith_container container,
      printValueWith_printDouble finite]
    rfl
  · unfold copyOf copyOfWith
    cases type : item.type with
    | array => exact absurd (.inl type) container
    | object => exact absurd (.inr type) container
    | false | true | null | number | string => rfl

/-- The copy of an array or object that is not read back is a null pointer. -/
theorem copyOf_notReadBack
    {item : CJSON}
    (printable : item.Printable)
    (notReadBack : item.NotReadBack) :
    copyOfWith printDouble item = .ok none := by
  obtain ⟨container, notFinite⟩ := notReadBack
  obtain ⟨ep, malformed⟩ :=
    parse_printDouble_malformed printable container notFinite true [0]
  rw [copyOfWith_container container, parseOrNull, malformed]

/-! ## Names -/

/-- The names of the children of an array or object after the copy of an item with a
name: if that is one of them, it takes the place of the first that is like it ignoring
case, and else it comes last. -/
def installName
    (names : List (Option Bytes))
    (key : Option Bytes) : List (Option Bytes) :=
  if key ∈ names then
    names.set
      (names.findIdx fun other =>
        decide (other.map (List.map toLower) = key.map (List.map toLower))) key
  else names ++ [key]

/-- The names after some items are merged. Those that are not read back add none. -/
def namesAfter (names : List (Option Bytes)) (items : List CJSON) : List (Option Bytes) :=
  items.foldl
    (fun names item => if item.NotReadBack then names else installName names item.name)
    names

/-- No item that is not read back has the name of a child by then. -/
def ReplacesReadBack (names : List (Option Bytes)) (items : List CJSON) : Prop :=
  ∀ before item after, items = before ++ item :: after → item.NotReadBack →
    item.name ∉ namesAfter names before

theorem replacesReadBack_cons_iff
    (names : List (Option Bytes))
    (item : CJSON)
    (items : List CJSON) :
    ReplacesReadBack names (item :: items) ↔
      (item.NotReadBack → item.name ∉ names) ∧
        ReplacesReadBack (namesAfter names [item]) items := by
  constructor
  · intro replaces
    refine ⟨replaces [] item items rfl, fun before other after split => ?_⟩
    rw [split] at replaces
    exact replaces (item :: before) other after rfl
  · rintro ⟨first, later⟩ before other after split
    cases before with
    | nil =>
        obtain ⟨rfl, rfl⟩ := List.cons.inj split
        exact first
    | cons earlier before =>
        obtain ⟨rfl, rfl⟩ := List.cons.inj split
        exact later before other after rfl

section Container

variable {target : CJSON} (container : target.IsContainer) {key : CString}

include container

theorem doesAttributeExist_iff
    (notEmpty : key.val ≠ [])
    (next : List CJSON) :
    doesAttributeExist (target :: next) key.val false =
      .ok (decide (some key.val ∈ target.child.map name)) := by
  have member : target.HasMember key ↔ some key.val ∈ target.child.map name := by
    rw [HasMember, and_iff_right notEmpty, names, KeyedList.mem_names_iff, List.mem_map]
  rw [doesAttributeExist_of_container container, decide_eq_decide.mpr member]

/-- A copy is installed under its name. -/
theorem exists_install_some
    (notEmpty : key.val ≠ [])
    (new : CJSON)
    (next : List CJSON) :
    ∃ after, install (target :: next) key (some new) = .ok (after :: next) ∧
      after.IsContainer ∧
      after.child.map name = installName (target.child.map name) (some key.val) := by
  unfold install
  rw [doesAttributeExist_iff container notEmpty, Outcome.ok_bind]
  by_cases member : some key.val ∈ target.child.map name
  · have isMember : key.val ∈ target.names :=
      KeyedList.mem_names_iff.mpr (List.mem_map.mp member)
    obtain ⟨which, first⟩ := exists_indexLike_of_mem isMember
    refine ⟨target.replaceItemInArray which { new with string := some key }, ?_,
      container, ?_⟩
    · simp only [decide_eq_true member, if_true, replaceItemInObject, first]
      rfl
    · have place : (target.child.map name).findIdx (fun other =>
          decide (other.map (List.map toLower) =
            (some key.val).map (List.map toLower))) = which := by
        rw [indexLike, List.findIdx?_eq_some_iff_findIdx_eq] at first
        rw [List.findIdx_map, ← first.2]
        congr 1
        funext other
        rw [Function.comp_apply, Bool.eq_iff_iff, namedLike_iff, decide_eq_true_iff]
        rfl
      rw [installName, if_pos member, place, replaceItemInArray, List.map_set]
      rfl
  · refine ⟨target.addItemToObject key (some new), ?_, container, ?_⟩
    · simp only [decide_eq_false member, Bool.false_eq_true, if_false]
      rfl
    · rw [installName, if_neg member]
      exact List.map_append

/-- A null pointer is installed under a new name only, which changes nothing. -/
theorem install_none_eq_ok_iff
    (notEmpty : key.val ≠ [])
    (next middle : List CJSON) :
    install (target :: next) key none = .ok middle ↔
      some key.val ∉ target.child.map name ∧ middle = target :: next := by
  unfold install
  rw [doesAttributeExist_iff container notEmpty, Outcome.ok_bind]
  by_cases member : some key.val ∈ target.child.map name
  · have isMember : key.val ∈ target.names :=
      KeyedList.mem_names_iff.mpr (List.mem_map.mp member)
    obtain ⟨which, first⟩ := exists_indexLike_of_mem isMember
    simp only [decide_eq_true member, if_true, replaceItemInObject, first]
    refine iff_of_false ?_ fun both => both.1 member
    intro returned
    cases returned
  · simp only [decide_eq_false member, Bool.false_eq_true, if_false]
    rw [and_iff_right member]
    constructor
    · intro returned
      cases returned
      rfl
    · rintro rfl
      rfl

/-- A merge into an array or object ends exactly if all items have names and those that
are not read back have new ones. -/
theorem mergeEnds_container_iff
    {items : List CJSON}
    (printable : ∀ item ∈ items, item.Printable)
    (next : List CJSON) :
    MergeEnds (target :: next) items ↔
      (∀ item ∈ items, item.HasName) ∧
        ReplacesReadBack (target.child.map name) items := by
  induction items generalizing target with
  | nil =>
      refine iff_of_true ⟨1, target :: next, rfl⟩ ⟨List.forall_mem_nil _, ?_⟩
      intro before item after split
      simp at split
  | cons item items inductionHypothesis =>
      obtain ⟨itemPrintable, printable⟩ := List.forall_mem_cons.mp printable
      rw [List.forall_mem_cons]
      by_cases named : item.HasName
      · obtain ⟨key, isKey, notEmpty⟩ := (hasName_iff item).mp named
        have isName : item.name = some key.val := congrArg (Option.map Subtype.val) isKey
        rw [mergeEnds_cons_iff isKey notEmpty, replacesReadBack_cons_iff,
          and_iff_right named, isName]
        by_cases notReadBack : item.NotReadBack
        · have same : namesAfter (target.child.map name) [item] = target.child.map name :=
            if_pos notReadBack
          rw [copyOf_notReadBack itemPrintable notReadBack, Outcome.ok_bind, same]
          simp only [install_none_eq_ok_iff container notEmpty, and_assoc,
            exists_and_left, exists_eq_left, notReadBack, forall_const,
            inductionHypothesis container printable]
          exact and_left_comm
        · obtain ⟨new, copied⟩ := exists_copyOf_printDouble itemPrintable notReadBack
          obtain ⟨after, installed, afterContainer, names⟩ :=
            exists_install_some container notEmpty new next
          have changed : namesAfter (target.child.map name) [item] =
              after.child.map name := by
            rw [names, ← isName]
            exact if_neg notReadBack
          rw [copied, Outcome.ok_bind, changed]
          simp only [installed, Except.ok.injEq, exists_eq_left', notReadBack,
            false_implies, true_and, inductionHypothesis afterContainer printable]
      · exact iff_of_false (not_mergeEnds_of_nameless named _ items)
          fun both => named both.1.1

end Container

/-- A merge into another item, which has no name, finds nothing to replace. -/
theorem mergeEnds_scalar_iff
    {target : CJSON}
    (scalar : ¬ target.IsContainer)
    (unnamed : target.string = none)
    {items : List CJSON}
    (printable : ∀ item ∈ items, item.Printable) :
    MergeEnds [target] items ↔ ∀ item ∈ items, item.HasName := by
  induction items generalizing target with
  | nil => exact iff_of_true ⟨1, [target], rfl⟩ (List.forall_mem_nil _)
  | cons item items inductionHypothesis =>
      obtain ⟨itemPrintable, printable⟩ := List.forall_mem_cons.mp printable
      rw [List.forall_mem_cons]
      by_cases named : item.HasName
      · obtain ⟨key, isKey, notEmpty⟩ := (hasName_iff item).mp named
        have absent : attributeExists target [] key = false := by
          have nothing : KeyedList.names name [target] = [] := by
            rw [KeyedList.names, List.filterMap_cons_none (by rw [name, unnamed]; rfl)]
            rfl
          rw [attributeExists, if_neg scalar, Bool.eq_false_iff, ne_eq, existsIn_iff, nothing]
          exact fun both => List.not_mem_nil both.2
        have installed (copy : Option CJSON) : install [target] key copy =
            .ok [target.addItemToObject key copy] := by
          unfold install
          rw [doesAttributeExist_cons, absent]
          rfl
        obtain ⟨copy, copied⟩ : ∃ copy, copyOfWith printDouble item = .ok copy := by
          by_cases notReadBack : item.NotReadBack
          · exact ⟨none, copyOf_notReadBack itemPrintable notReadBack⟩
          · obtain ⟨new, copied⟩ := exists_copyOf_printDouble itemPrintable notReadBack
            exact ⟨some new, copied⟩
        have stillScalar : ¬ (target.addItemToObject key copy).IsContainer := by
          cases copy <;> exact scalar
        have stillUnnamed : (target.addItemToObject key copy).string = none := by
          cases copy <;> exact unnamed
        rw [mergeEnds_cons_iff isKey notEmpty, and_iff_right named, copied, Outcome.ok_bind]
        simp only [installed, Except.ok.injEq, exists_eq_left',
          inductionHypothesis stillScalar stillUnnamed printable]
      · exact iff_of_false (not_mergeEnds_of_nameless named _ items)
          fun both => named both.1

/-! ## The loop of a diff -/

/-- A run along a walk comes to its end exactly if every item has a name and no turn
fails. -/
theorem exists_runAlong_eq_ok_iff
    (walk : List Visit)
    (run : DiffRun) :
    (∃ last, runAlong walk run = .ok last) ↔
      ∀ visit ∈ walk, visit.item1.HasName ∧ ¬ visit.Fails := by
  induction walk generalizing run with
  | nil => exact iff_of_true ⟨run, rfl⟩ (List.forall_mem_nil _)
  | cons visit walk inductionHypothesis =>
      rw [runAlong, List.forall_mem_cons]
      by_cases named : visit.item1.HasName
      · have does := turn_does visit run
        rw [if_pos named, and_iff_right named]
        cases result : turn visit run with
        | ok middle =>
            rw [result] at does
            rw [Outcome.ok_bind, and_iff_right does.1]
            exact inductionHypothesis middle
        | error error =>
            rw [result] at does
            cases error with
            | failed error =>
                refine iff_of_false ?_ fun both => both.1 does
                rintro ⟨last, returned⟩
                cases returned
            | outOfFuel last => exact does.elim
      · rw [if_neg named]
        refine iff_of_false ?_ fun both => named both.1.1
        rintro ⟨last, returned⟩
        cases returned

/-- A diff ends exactly if its walk comes to names only and no turn fails. -/
theorem diffTerminates_iff (JSONObj1 JSONObj2 JSONObjDiff : CJSON) :
    DiffTerminates JSONObj1 JSONObj2 JSONObjDiff ↔
      ∀ visit ∈ visits JSONObj1 JSONObj2 [], visit.item1.HasName ∧ ¬ visit.Fails := by
  rw [← exists_runAlong_eq_ok_iff _ ⟨JSONObjDiff, []⟩]
  constructor
  · rintro ⟨fuel, result, returned⟩
    have refines := diffLoop_refines fuel JSONObj1 JSONObj1.child JSONObj2 []
      ⟨JSONObjDiff, []⟩
    rw [← visits_eq] at refines
    rw [diffJSONObjects_cons] at returned
    obtain ⟨last, loop, -⟩ := Outcome.map_eq_ok_iff.mp returned
    rw [loop] at refines
    exact ⟨last, refines.eq_ok⟩
  · rintro ⟨last, along⟩
    obtain ⟨enough, settled⟩ := exists_diffLoop_eq JSONObj1 JSONObj2 []
    refine ⟨enough, (true, last), ?_⟩
    rw [diffJSONObjects_cons, settled enough (Nat.le_refl _), along]
    rfl

/-- On trees as the parser builds them a merge ends exactly if every item of the source
has a name and, where the target is an array or object, none of them that is not read
back has the name of a child by then. A diff ends exactly if every item that it comes to
has a name and no comparison fails. -/
theorem merge_and_diff_terminate_iff
    {target source : CJSON}
    (unnamed : target.string = none)
    (parsed : source.Parsed)
    (JSONObj1 JSONObj2 JSONObjDiff : CJSON) :
    (MergeTerminates target source ↔
        (∀ item ∈ source.child, item.HasName) ∧
          (target.IsContainer →
            ReplacesReadBack (target.child.map name) source.child)) ∧
      (DiffTerminates JSONObj1 JSONObj2 JSONObjDiff ↔
        ∀ visit ∈ visits JSONObj1 JSONObj2 [], visit.item1.HasName ∧ ¬ visit.Fails) := by
  have printable : ∀ item ∈ source.child, item.Printable :=
    fun item isItem => (parsed.of_mem_child isItem).printable
  refine ⟨?_, diffTerminates_iff JSONObj1 JSONObj2 JSONObjDiff⟩
  by_cases container : target.IsContainer
  · rw [MergeTerminates, mergeEnds_container_iff container printable]
    simp only [container, forall_const]
  · rw [MergeTerminates, mergeEnds_scalar_iff container unnamed printable]
    simp only [container, false_implies, and_true]

/-- An object with a number under the name "a". -/
def numberUnderA : CJSON :=
  createObject.addItemToObject (keyOf ['a']) (some (createNumber 1))

/-- An array of an infinite number. -/
def arrayOfInfinity : CJSON :=
  { newItem with type := .array, child := [createNumber infinity] }

/-- An object with this array under the name "a". -/
def infinityUnderA : CJSON :=
  createObject.addItemToObject (keyOf ['a']) (some arrayOfInfinity)

theorem child_infinityUnderA :
    infinityUnderA.child = [{ arrayOfInfinity with string := some (keyOf ['a']) }] := rfl

theorem parsed_infinityUnderA : infinityUnderA.Parsed := by
  have number (value : Rat) : (createNumber value).Parsed :=
    parsed_of_leaf rfl CJSONType.noConfusion fun _ => rfl
  have array : ({ arrayOfInfinity with string := some (keyOf ['a']) } : CJSON).Parsed :=
    parsed_of_node
      { string := CJSONType.noConfusion
        number := CJSONType.noConfusion
        elements := fun _ => List.forall_mem_singleton.mpr rfl
        members := CJSONType.noConfusion
        leaf := fun scalar => absurd (.inl rfl) scalar }
      (List.forall_mem_singleton.mpr (number infinity))
  exact parsed_of_node
    { string := CJSONType.noConfusion
      number := CJSONType.noConfusion
      elements := CJSONType.noConfusion
      members := fun _ => List.forall_mem_singleton.mpr rfl
      leaf := fun scalar => absurd (.inr rfl) scalar }
    (List.forall_mem_singleton.mpr array)

theorem notReadBack_arrayOfInfinity (string : Option CString) :
    ({ arrayOfInfinity with string := string } : CJSON).NotReadBack :=
  ⟨.inl rfl, fun finite => not_isFinite_infinity
    (finite (createNumber infinity) (List.mem_cons_of_mem _ List.mem_cons_self) rfl)⟩

/-- The array is merged into an object without its name, but it cannot replace a number.
The diff with the number returns. -/
theorem merge_and_diff_terminate_infinity :
    MergeTerminates createObject infinityUnderA ∧
      ¬ MergeTerminates numberUnderA infinityUnderA ∧
      DiffTerminates numberUnderA infinityUnderA createObject := by
  have unnamed : createObject.string = none := rfl
  have unnamedOther : numberUnderA.string = none := rfl
  have numberChild : numberUnderA.child =
      [{ createNumber 1 with string := some (keyOf ['a']) }] := rfl
  refine ⟨?_, ?_, ?_⟩
  · refine (merge_and_diff_terminate_iff unnamed parsed_infinityUnderA createObject
      createObject createObject).1.mpr ⟨?_, fun _ before item after split _ => ?_⟩
    · rw [child_infinityUnderA, List.forall_mem_singleton]
      decide
    · rw [child_infinityUnderA] at split
      cases before with
      | nil => exact List.not_mem_nil
      | cons first before => simp at split
  · intro ends
    have replaces := ((merge_and_diff_terminate_iff unnamedOther parsed_infinityUnderA
      createObject createObject createObject).1.mp ends).2 (.inr rfl)
    exact replaces [] _ [] child_infinityUnderA (notReadBack_arrayOfInfinity _)
      List.mem_cons_self
  · refine (merge_and_diff_terminate_iff unnamed parsed_infinityUnderA numberUnderA
      infinityUnderA createObject).2.mpr ?_
    rw [visits_eq, numberChild, List.flatMap_singleton]
    refine List.forall_mem_singleton.mpr ⟨by decide, ?_⟩
    -- Only arrays and strings can fail.
    rintro ⟨-, ⟨array, -⟩ | ⟨item2, -, string, -⟩⟩
    · cases array
    · cases string

/-- The text of an object with an empty name. -/
def emptyNameText : Bytes :=
  ascii ['{', '"', '"', ':', 'n', 'u', 'l', 'l', '}'] ++ [0]

/-- The object with an empty name. -/
def emptyName : CJSON :=
  createObject.addItemToObject (keyOf []) (some createNull)

/-- On the object with an empty name, which the parser returns, neither loop
ends. -/
theorem not_terminate_emptyName :
    parse emptyNameText = .ok emptyName ∧
      ¬ MergeTerminates createObject emptyName ∧
      ¬ DiffTerminates emptyName createObject createObject := by
  have split : emptyName.child =
      [{ createNull with string := some (keyOf []) }] := rfl
  have nameless :
      ¬ ({ createNull with string := some (keyOf []) } : CJSON).HasName := by
    decide
  refine ⟨rfl, ?_, ?_⟩
  · rw [MergeTerminates, split]
    exact not_mergeEnds_of_nameless nameless _ _
  · rw [diffTerminates_iff, visits_eq, split]
    exact fun works => nameless (works _ List.mem_cons_self).1

end CJSON
end ProtobufSandbox
