import ProtobufSandbox.Json.Shape
import ProtobufSandbox.Json.DiffTurn

/-!
# The strings that a diff uses

A diff streams and converts the `valuestring` of items without looking at their
type. When all of these are strings, and all items are there, is told by the items
of the walk, up to the first without a name.
-/

namespace ProtobufSandbox
namespace CJSON

/-- An item as `cJSON` builds it: a string has a text, and only arrays and objects
have children. -/
structure BuiltNode (item : CJSON) : Prop where
  string : item.type = .string → item.valuestring.isSome
  leaf : ¬ item.IsContainer → item.child = []

/-- Every item of the tree is as `cJSON` builds it. -/
def Built (item : CJSON) : Prop :=
  ∀ node ∈ item.nodes, node.BuiltNode

theorem Built.node
    {item : CJSON}
    (built : item.Built) :
    item.BuiltNode :=
  built item item.mem_nodes_self

theorem Built.of_mem_child
    {item child : CJSON}
    (built : item.Built)
    (present : child ∈ item.child) :
    child.Built := by
  by_cases container : item.IsContainer
  · exact fun node below => built node (mem_nodes_of_mem_child container present below)
  · rw [built.node.leaf container] at present
    exact absurd present List.not_mem_nil

/-- The parser builds its trees so. -/
theorem Parsed.built
    {item : CJSON}
    (parsed : item.Parsed) :
    item.Built :=
  fun node below => ⟨(parsed node below).string, (parsed node below).leaf⟩

/-- A string that is built has a text. -/
theorem Built.text_ne_none
    {item : CJSON}
    (built : item.Built)
    (string : item.type = .string) :
    item.text ≠ none := by
  obtain ⟨valuestring, present⟩ := Option.isSome_iff_exists.mp (built.node.string string)
  rw [text, present]
  exact Option.some_ne_none _

/-- What a call has used until it returned or spent its fuel are texts of strings,
and it has not failed. -/
def UsesStrings : Except DiffError DiffRun → Prop
  | .ok run => run.OnlyStrings
  | .error (.outOfFuel run) => run.OnlyStrings
  | .error (.failed _) => False

/-- The items that a walk comes to before one without a name. -/
def compared (walk : List Visit) : List Visit :=
  walk.takeWhile fun visit => decide visit.item1.HasName

/-! ## Turns that fail -/

theorem not_pairUses_of_pairFails
    {item1 item2 : CJSON}
    (built1 : item1.Built)
    (built2 : item2.Built)
    (fails : PairFails item1 item2) :
    ¬ PairUses item1 item2 := by
  obtain ⟨string, none2 | none1⟩ := fails
  · exact fun uses => built2.text_ne_none (uses string) none2
  · exact absurd none1 (built1.text_ne_none string)

/-- Among built items a turn fails only where it would use something else than a
string. -/
theorem not_uses_of_fails
    {visit : Visit}
    (built1 : visit.item1.Built)
    (built2 : visit.JSONObj2.Built)
    (fails : visit.Fails) :
    ¬ visit.Uses := by
  have counterpartBuilt {item2 : CJSON} (isCounterpart : item2 ∈ visit.counterpart) :
      item2.Built := by
    obtain ⟨siblings2, looked⟩ := List.head?_eq_some_iff.mp isCounterpart
    exact built2.of_mem_child (mem_child_of_getObjectItem looked)
  rintro ⟨-, uses⟩
  obtain ⟨found, inArray | ⟨item2, isCounterpart, pairFails⟩⟩ := fails
  · obtain ⟨array, none | ⟨item2, isCounterpart, array2, pair, isPair, pairFails⟩⟩ :=
      inArray
    · have isSome := (uses found).1 array
      rw [none] at isSome
      cases isSome
    · obtain ⟨element1, element2⟩ := List.of_mem_zip isPair
      refine not_pairUses_of_pairFails (built1.of_mem_child element1)
        ((counterpartBuilt isCounterpart).of_mem_child element2) pairFails ?_
      exact ((uses found).2 item2 isCounterpart).2 array array2 pair isPair
  · exact not_pairUses_of_pairFails built1 (counterpartBuilt isCounterpart) pairFails
      ((uses found).2 item2 isCounterpart).1

/-- Along the walk of two built trees a turn that uses strings does not fail. -/
theorem not_fails_of_mem_visits
    {JSONObj1 JSONObj2 : CJSON}
    (built1 : JSONObj1.Built)
    (built2 : JSONObj2.Built)
    (next2 : List CJSON) :
    ∀ visit ∈ visits JSONObj1 JSONObj2 next2, visit.Uses → ¬ visit.Fails := by
  refine @forall_visits (fun first second => first.Built ∧ second.Built) _ ?_ _ _
    ⟨built1, built2⟩ next2
  intro first second next item1 both isItem
  refine ⟨fun uses fails => ?_, fun subs found => ⟨?_, ?_⟩⟩
  · exact not_uses_of_fails (both.1.of_mem_child isItem) both.2 fails uses
  · exact both.1.of_mem_child (mem_child_of_subObjects found)
  · exact both.2.of_mem_child (mem_child_of_subObjects_second found)

/-! ## Runs -/

theorem compared_cons_of_named
    {visit : Visit}
    (named : visit.item1.HasName)
    (walk : List Visit) :
    compared (visit :: walk) = visit :: compared walk :=
  List.takeWhile_cons_of_pos (decide_eq_true named)

theorem compared_cons_of_nameless
    {visit : Visit}
    (nameless : ¬ visit.item1.HasName)
    (walk : List Visit) :
    compared (visit :: walk) = [] :=
  List.takeWhile_cons_of_neg (by simpa using nameless)

theorem compared_append_of_named
    {first : List Visit}
    (named : ∀ visit ∈ first, visit.item1.HasName)
    (second : List Visit) :
    compared (first ++ second) = first ++ compared second :=
  List.takeWhile_append_of_pos fun visit isVisit => decide_eq_true (named visit isVisit)

theorem mem_compared_append
    {first : List Visit}
    {visit : Visit}
    (isCompared : visit ∈ compared first)
    (second : List Visit) :
    visit ∈ compared (first ++ second) := by
  unfold compared at isCompared ⊢
  rw [List.takeWhile_append]
  split
  · next whole =>
      rw [(List.takeWhile_sublist _).eq_of_length whole] at isCompared
      exact List.mem_append_left _ isCompared
  · exact isCompared

/-- What was used before is among what was used in the end. -/
theorem onlyStrings_of_usesStrings
    {walk : List Visit}
    {run : DiffRun}
    (uses : UsesStrings (runAlong walk run)) :
    run.OnlyStrings := by
  induction walk generalizing run with
  | nil => exact uses
  | cons visit walk inductionHypothesis =>
      rw [runAlong] at uses
      by_cases named : visit.item1.HasName
      · rw [if_pos named] at uses
        have does := turn_does visit run
        cases result : turn visit run with
        | ok middle =>
            rw [result] at does uses
            exact (does.2.strings.mp (inductionHypothesis uses)).1
        | error error =>
            rw [result] at does uses
            cases error with
            | failed error => exact absurd uses id
            | outOfFuel last => exact absurd does id
      · rw [if_neg named] at uses
        exact uses

/-- A run along a walk uses strings exactly if each turn does. -/
theorem runAlong_usesStrings_iff
    {walk : List Visit}
    (works : ∀ visit ∈ walk, visit.Uses → ¬ visit.Fails)
    {run : DiffRun}
    (strings : run.OnlyStrings) :
    UsesStrings (runAlong walk run) ↔ ∀ visit ∈ compared walk, visit.Uses := by
  induction walk generalizing run with
  | nil => exact iff_of_true strings (List.forall_mem_nil _)
  | cons visit walk inductionHypothesis =>
      obtain ⟨firstWorks, works⟩ := List.forall_mem_cons.mp works
      rw [runAlong]
      by_cases named : visit.item1.HasName
      · rw [if_pos named, compared_cons_of_named named, List.forall_mem_cons]
        have does := turn_does visit run
        cases result : turn visit run with
        | ok middle =>
            rw [result] at does
            have middleStrings : middle.OnlyStrings ↔ visit.Uses :=
              does.2.strings.trans (and_iff_right strings)
            by_cases uses : visit.Uses
            · rw [and_iff_right uses]
              exact inductionHypothesis works (middleStrings.mpr uses)
            · refine iff_of_false (fun later => uses ?_) fun both => uses both.1
              exact middleStrings.mp (onlyStrings_of_usesStrings later)
        | error error =>
            rw [result] at does
            cases error with
            | failed error =>
                exact iff_of_false id fun both => firstWorks both.1 does
            | outOfFuel last => exact absurd does id
      · rw [if_neg named, compared_cons_of_nameless named]
        exact iff_of_true strings (List.forall_mem_nil _)

/-- A run along a walk returns only if every item has a name. -/
theorem named_of_runAlong
    {walk : List Visit}
    {run last : DiffRun}
    (returned : runAlong walk run = .ok last) :
    ∀ visit ∈ walk, visit.item1.HasName := by
  induction walk generalizing run with
  | nil => exact List.forall_mem_nil _
  | cons visit walk inductionHypothesis =>
      rw [runAlong] at returned
      by_cases named : visit.item1.HasName
      · rw [if_pos named] at returned
        obtain ⟨middle, -, rest⟩ := Outcome.bind_eq_ok_iff.mp returned
        exact List.forall_mem_cons.mpr ⟨named, inductionHypothesis rest⟩
      · rw [if_neg named] at returned
        cases returned

/-- A turn that uses strings and does not fail returns. -/
theorem exists_turn_of_uses
    {visit : Visit}
    {run : DiffRun}
    (strings : run.OnlyStrings)
    (uses : visit.Uses)
    (works : ¬ visit.Fails) :
    ∃ after, turn visit run = .ok after ∧ after.OnlyStrings := by
  have does := turn_does visit run
  cases result : turn visit run with
  | ok after =>
      rw [result] at does
      exact ⟨after, rfl, does.2.strings.mpr ⟨strings, uses⟩⟩
  | error error =>
      rw [result] at does
      cases error with
      | failed error => exact absurd does works
      | outOfFuel last => exact absurd does id

/-- A loop with any fuel uses strings if each turn of the walk does. -/
theorem diffLoop_usesStrings
    (fuel : Nat)
    {JSONObj1 JSONObj2 : CJSON}
    {items next2 : List CJSON}
    {run : DiffRun}
    (strings : run.OnlyStrings)
    (works : ∀ visit ∈ items.flatMap (visitsAt JSONObj1 JSONObj2 next2),
      visit.Uses → ¬ visit.Fails)
    (uses : ∀ visit ∈ compared (items.flatMap (visitsAt JSONObj1 JSONObj2 next2)),
      visit.Uses) :
    UsesStrings (diffLoop fuel JSONObj1 items JSONObj2 next2 run) := by
  induction fuel generalizing JSONObj1 items JSONObj2 next2 run with
  | zero => exact strings
  | succ fuel inductionHypothesis =>
      cases items with
      | nil => exact strings
      | cons item1 items =>
          by_cases named : item1.HasName
          · rw [List.flatMap_cons, visitsAt, List.cons_append] at works uses
            rw [compared_cons_of_named named] at uses
            obtain ⟨firstWorks, works⟩ := List.forall_mem_cons.mp works
            obtain ⟨firstUses, uses⟩ := List.forall_mem_cons.mp uses
            obtain ⟨nestedWorks, restWorks⟩ := List.forall_mem_append.mp works
            obtain ⟨middle, turned, middleStrings⟩ :
                ∃ middle, turn ⟨item1, JSONObj2, next2⟩ run = .ok middle ∧
                  middle.OnlyStrings :=
              exists_turn_of_uses strings firstUses (firstWorks firstUses)
            rw [diffLoop_cons named, turned, Outcome.ok_bind]
            cases found : subObjects JSONObj1 item1 JSONObj2 next2 with
            | none =>
                rw [found, Option.elim_none, List.nil_append] at uses
                rw [Option.elim_none, Outcome.ok_bind]
                exact inductionHypothesis middleStrings restWorks uses
            | some subs =>
                rw [found, Option.elim_some] at nestedWorks uses
                rw [visits_eq] at nestedWorks uses
                rw [Option.elim_some]
                have nestedUses := inductionHypothesis middleStrings nestedWorks
                  fun visit isCompared => uses visit (mem_compared_append isCompared _)
                have refines := diffLoop_refines fuel subs.1 subs.1.child subs.2.1
                  subs.2.2 middle
                cases result : diffLoop fuel subs.1 subs.1.child subs.2.1 subs.2.2
                    middle with
                | ok last =>
                    rw [result] at nestedUses refines
                    -- The recursive call has returned, so its whole walk is compared.
                    have nestedNamed := named_of_runAlong refines.eq_ok
                    rw [compared_append_of_named nestedNamed] at uses
                    rw [Outcome.ok_bind]
                    exact inductionHypothesis nestedUses restWorks fun visit isVisit =>
                      uses visit (List.mem_append_right _ isVisit)
                | error error =>
                    rw [result] at nestedUses
                    exact nestedUses
          · rw [diffLoop_of_nameless named]
            exact strings

theorem usesStrings_map
    (outcome : Except DiffError DiffRun) :
    UsesStrings ((outcome.map fun run => (true, run)).map Prod.snd) =
      UsesStrings outcome := by
  cases outcome <;> rfl

/-- Each comparison that a diff of two objects makes, for as long as it runs, uses
the texts of strings only and reads items that are there, exactly if this holds at
each item that the walk comes to before one without a name: a member that the second
object lacks is a string or an array, an array that it has is looked up, and a string
is compared with a string. -/
theorem usesStrings_iff
    {JSONObj1 JSONObj2 : CJSON}
    (built1 : JSONObj1.Built)
    (built2 : JSONObj2.Built)
    (next1 next2 : List CJSON)
    (JSONObjDiff : CJSON) :
    (∀ fuel, UsesStrings ((diffJSONObjects fuel (JSONObj1 :: next1) (JSONObj2 :: next2)
      JSONObjDiff).map Prod.snd)) ↔
      ∀ visit ∈ compared (visits JSONObj1 JSONObj2 next2), visit.Uses := by
  simp only [diffJSONObjects_cons, usesStrings_map]
  have works := not_fails_of_mem_visits built1 built2 next2
  have none : DiffRun.OnlyStrings ⟨JSONObjDiff, []⟩ := List.forall_mem_nil _
  constructor
  · intro uses
    obtain ⟨enough, along⟩ := exists_diffLoop_eq JSONObj1 JSONObj2 next2
    refine (runAlong_usesStrings_iff works none).mp ?_
    rw [← along enough (Nat.le_refl enough)]
    exact uses enough
  · intro uses fuel
    rw [visits_eq] at works uses
    exact diffLoop_usesStrings fuel none works uses

/-- An object with one member named `a`, as a text. -/
def memberText (value : Bytes) : Bytes :=
  ascii ['{', '"', 'a', '"', ':'] ++ value ++ ascii ['}'] ++ [0]

/-- An object with one member named `a`. -/
def memberObject (value : CJSON) : CJSON :=
  createObject.addItemToObject (keyOf ['a']) (some value)

theorem parse_memberText_null :
    parse (memberText (ascii ['n', 'u', 'l', 'l'])) = .ok (memberObject createNull) := rfl

theorem parse_memberText_string :
    parse (memberText (ascii ['"', 'b', '"'])) =
      .ok (memberObject (createString (keyOf ['b']))) := rfl

/-- What the parser returns is built. -/
theorem built_of_parse
    {value : Bytes}
    {item : CJSON}
    (parsed : parse value = .ok item) :
    item.Built :=
  (Outcome.Meets.of_eq_ok (parse_returns value) parsed).1.built

/-- The condition on a string that the second object lacks. -/
theorem usesStrings_string :
    (∀ fuel, UsesStrings
      ((diffJSONObjects fuel [memberObject (createString (keyOf ['b']))]
        [memberObject createNull] createObject).map Prod.snd)) ↔
      ∀ visit ∈ compared (visits (memberObject (createString (keyOf ['b'])))
        (memberObject createNull) []), visit.Uses :=
  usesStrings_iff (built_of_parse parse_memberText_string)
    (built_of_parse parse_memberText_null) [] [] createObject

/-- The text of a `NULL` that the second object lacks is streamed. -/
theorem not_usesStrings_null :
    parse (memberText (ascii ['n', 'u', 'l', 'l'])) = .ok (memberObject createNull) ∧
      ¬ UsesStrings
        ((diffJSONObjects 2 [memberObject createNull] [createObject]
          createObject).map Prod.snd) := by
  refine ⟨parse_memberText_null, fun uses => ?_⟩
  have isNull := uses { createNull with string := some (keyOf ['a']) }
    List.mem_cons_self
  cases isNull

end CJSON
end ProtobufSandbox
