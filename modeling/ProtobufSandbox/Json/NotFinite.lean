import Mathlib.Tactic.Positivity
import ProtobufSandbox.Json.Attributes
import ProtobufSandbox.Json.RoundTrip

/-!
# Numbers that are not finite

A `double` may also be infinite or not a number. The rationals below `2 ^ 1024` stand
for the finite doubles, and the others for the infinite ones, as a number that is too
large is read as one. A single rational, which no text denotes, stands for what is no
number. `print_number` writes a word for them that is no JSON: an array or object that
holds one is not read back.
-/

namespace ProtobufSandbox

/-- The least number that stands for the infinite `double`. -/
def infinity : Rat := 2 ^ 1024

/-- The number that stands for the `double` that is no number, up to its sign. It is no
decimal fraction. -/
def notANumber : Rat := infinity + 1 / 3

/-- The number is that of a finite `double`. -/
def IsFinite (number : Rat) : Prop :=
  |number| < infinity

instance (number : Rat) : Decidable (IsFinite number) :=
  inferInstanceAs (Decidable (_ < _))

theorem not_isFinite_infinity : ¬ IsFinite infinity := by
  have positive : 0 < infinity := by
    unfold infinity
    positivity
  rw [IsFinite, abs_of_pos positive]
  exact lt_irrefl infinity

/-- `"%e"` and `"%f"` of a `double` that is not finite. -/
def formatNotFinite (number : Rat) : Bytes :=
  signOf number ++
    if |number| = notANumber then ascii ['n', 'a', 'n'] else ascii ['i', 'n', 'f']

namespace CJSON

/-- `print_number` of any `double`. One that is not finite fails the tests for integers
and whole numbers. -/
def printDouble (item : CJSON) : Bytes :=
  if IsFinite item.valuedouble then item.printNumber
  else formatNotFinite item.valuedouble

/-- All numbers of the tree are finite. -/
def HoldsFinite (item : CJSON) : Prop :=
  ∀ node ∈ item.nodes, node.type = .number → IsFinite node.valuedouble

instance (item : CJSON) : Decidable item.HoldsFinite :=
  inferInstanceAs (Decidable
    (∀ node ∈ item.nodes, node.type = .number → IsFinite node.valuedouble))

theorem HoldsFinite.of_mem_child
    {item child : CJSON}
    (finite : item.HoldsFinite)
    (container : item.IsContainer)
    (present : child ∈ item.child) :
    child.HoldsFinite :=
  fun node below => finite node (mem_nodes_of_mem_child container present below)

/-- Where a number is not finite, it is the item or below one of its children. -/
theorem not_holdsFinite_cases
    {item : CJSON}
    (notFinite : ¬ item.HoldsFinite) :
    (item.type = .number ∧ ¬ IsFinite item.valuedouble) ∨
      item.IsContainer ∧ ∃ child ∈ item.child, ¬ child.HoldsFinite := by
  simp only [HoldsFinite, not_forall] at notFinite
  obtain ⟨node, below, number, notFinite⟩ := notFinite
  rw [nodes_eq] at below
  cases List.mem_cons.mp below with
  | inl same => exact .inl (same ▸ ⟨number, notFinite⟩)
  | inr deeper =>
      split at deeper
      case isFalse => exact absurd deeper List.not_mem_nil
      case isTrue container =>
        rw [nodesOf_eq_flatMap] at deeper
        obtain ⟨child, present, inChild⟩ := List.mem_flatMap.mp deeper
        exact .inr ⟨container, child, present, fun finite =>
          notFinite (finite node inChild number)⟩

theorem holdsFinite_of
    {item : CJSON}
    (itself : item.type = .number → IsFinite item.valuedouble)
    (below : item.IsContainer → ∀ child ∈ item.child, child.HoldsFinite) :
    item.HoldsFinite := by
  by_contra notFinite
  rcases not_holdsFinite_cases notFinite with
    ⟨number, infinite⟩ | ⟨container, child, present, infinite⟩
  · exact infinite (itself number)
  · exact infinite (below container child present)

/-- In an array or object it is below a child. -/
theorem exists_child_of_not_holdsFinite
    {item : CJSON}
    (container : item.IsContainer)
    (notFinite : ¬ item.HoldsFinite) :
    ∃ child ∈ item.child, ¬ child.HoldsFinite := by
  rcases not_holdsFinite_cases notFinite with ⟨number, -⟩ | ⟨-, some⟩
  · rcases container with type | type
    all_goals exact absurd (type.symm.trans number) (by decide)
  · exact some

/-! ## Texts of finite numbers -/

/-- The text of a tree depends on the texts of its numbers only. -/
theorem printValueWith_congr
    {number other : CJSON → Bytes}
    {item : CJSON}
    (same : ∀ node ∈ item.nodes, node.type = .number → number node = other node)
    (depth : Nat)
    (fmt : Bool) :
    item.printValueWith number depth fmt = item.printValueWith other depth fmt := by
  induction item using CJSON.induction generalizing depth with
  | node item inductionHypothesis =>
      have children (container : item.IsContainer) : ∀ child ∈ item.child,
          child.printValueWith number (depth + 1) fmt =
            child.printValueWith other (depth + 1) fmt := by
        intro child present
        refine inductionHypothesis child present (fun node below => ?_) (depth + 1)
        exact same node (mem_nodes_of_mem_child container present below)
      cases type : item.type with
      | number =>
          rw [printValueWith_number number depth fmt type,
            printValueWith_number other depth fmt type]
          exact same item item.mem_nodes_self type
      | array =>
          rw [printValueWith_array number depth fmt type,
            printValueWith_array other depth fmt type,
            List.map_congr_left (children (.inl type))]
      | object =>
          rw [printValueWith_object number depth fmt type,
            printValueWith_object other depth fmt type]
          congr 1
          refine List.map_congr_left fun child present => ?_
          rw [children (.inr type) child present]
      | false | true | null | string =>
          cases item
          subst type
          rfl

/-- A tree with finite numbers. -/
theorem printValueWith_printDouble
    {item : CJSON}
    (finite : item.HoldsFinite)
    (depth : Nat)
    (fmt : Bool) :
    item.printValueWith printDouble depth fmt = item.printValue depth fmt :=
  printValueWith_congr (fun node below number => if_pos (finite node below number))
    depth fmt

/-! ## Readers that do not get past a text -/

/-- What the words begin with, once their sign is read. -/
def IsLetter (byte : UInt8) : Prop :=
  byte = UInt8.ofNat 'i'.toNat ∨ byte = UInt8.ofNat 'n'.toNat

theorem IsLetter.visible {byte : UInt8} (letter : IsLetter byte) : 32 < byte := by
  rcases letter with rfl | rfl <;> decide

theorem IsLetter.ne_comma {byte : UInt8} (letter : IsLetter byte) : byte ≠ comma := by
  rcases letter with rfl | rfl <;> decide

theorem IsLetter.ne_closing
    {byte closing : UInt8}
    (letter : IsLetter byte)
    (isClosing : IsClosing closing) :
    byte ≠ closing := by
  rcases letter with rfl | rfl <;> rcases isClosing with rfl | rfl <;> decide

/-- A part of the parse rejects its text, or stops in front of a letter. -/
def Stuck (outcome : Except ParseError (α × Bytes)) : Prop :=
  (∃ ep, outcome = .error (.malformed ep)) ∨
    ∃ value letter following, outcome = .ok (value, letter :: following) ∧ IsLetter letter

/-- A reader of values is stuck in a text, whatever follows it. -/
def StuckValue
    (parse : CJSON → Bytes → Except ParseError (CJSON × Bytes))
    (text : Bytes) :
    Prop :=
  ∀ new after, Stuck (parse new (text ++ after))

/-- A reader of entries is stuck in a text, whatever blanks stand in front of it. -/
def StuckEntry
    (entry : Bytes → Except ParseError (CJSON × Bytes))
    (text : Bytes) :
    Prop :=
  ∀ blanks, IsBlank blanks → ∀ after, Stuck (entry (blanks ++ (text ++ after)))

/-- The blanks behind a value change nothing. -/
theorem Stuck.bind_skip
    {outcome : Except ParseError (CJSON × Bytes)}
    (stuck : Stuck outcome) :
    Stuck (outcome >>= fun result => do return (result.1, ← skip result.2)) := by
  rcases stuck with ⟨ep, rfl⟩ | ⟨value, letter, following, rfl, isLetter⟩
  · exact .inl ⟨ep, rfl⟩
  · refine .inr ⟨value, letter, following, ?_, isLetter⟩
    rw [Outcome.ok_bind, skip_of_lt isLetter.visible]
    rfl

section Entries

variable {entry : Bytes → Except ParseError (CJSON × Bytes)}
variable {blanks ending : Bytes}
variable {text : CJSON → Bytes}
variable {copy : CJSON → CJSON}
variable {closing : UInt8}

/-- The loop over entries is stuck at the first entry that is not read. -/
theorem stuck_parseEntries
    (blanksBlank : IsBlank blanks)
    (endingBlank : IsBlank ending)
    (isClosing : IsClosing closing)
    {items : List CJSON}
    (reads : ∀ item ∈ items,
      ReadsEntry entry (text item) (copy item) ∨ StuckEntry entry (text item))
    (stuck : ∃ item ∈ items, StuckEntry entry (text item))
    {turns : Nat}
    (enough : items.length < turns)
    {rest value : Bytes}
    (skipped : skip (remainder blanks ending text items (closing :: rest)) =
      .ok value) :
    Stuck (parseEntries entry turns value) := by
  induction items generalizing turns value with
  | nil =>
      obtain ⟨item, present, -⟩ := stuck
      cases present
  | cons item items inductionHypothesis =>
      obtain ⟨turns, rfl⟩ := Nat.exists_eq_add_one.mpr (Nat.zero_lt_of_lt enough)
      obtain ⟨readsItem, reads⟩ := List.forall_mem_cons.mp reads
      have enough := Nat.lt_of_succ_lt_succ enough
      rw [remainder_cons, skip_of_lt (by decide)] at skipped
      cases skipped
      rw [parseEntries_comma]
      by_cases itemStuck : StuckEntry entry (text item)
      · rcases itemStuck _ blanksBlank _ with ⟨ep, rejected⟩ |
          ⟨child, letter, following, read, isLetter⟩
        · rw [rejected]
          exact .inl ⟨ep, rfl⟩
        -- The next turn finds no comma.
        · obtain ⟨turns, rfl⟩ := Nat.exists_eq_add_one.mpr (Nat.zero_lt_of_lt enough)
          refine .inr ⟨[child], letter, following, ?_, isLetter⟩
          rw [read, Outcome.ok_bind, parseEntries_of_ne_comma isLetter.ne_comma]
          rfl
      · obtain ⟨following, skipped, -⟩ :=
          exists_skip_remainder endingBlank isClosing items rest
        obtain ⟨child, readChild, -⟩ :=
          readsItem.resolve_right itemStuck blanksBlank
            (delimited_remainder endingBlank isClosing items rest) skipped
        have later := (List.or_exists_of_exists_mem_cons stuck).resolve_left itemStuck
        rw [readChild, Outcome.ok_bind]
        rcases inductionHypothesis reads later enough skipped with ⟨ep, rejected⟩ |
          ⟨children, letter, last, read, isLetter⟩
        · rw [rejected]
          exact .inl ⟨ep, rfl⟩
        · refine .inr ⟨child :: children, letter, last, ?_, isLetter⟩
          rw [read]
          rfl

/-- What is stuck in its entries is malformed for a container. -/
theorem parseContainer_malformed
    (opening : UInt8)
    {before indent : Bytes}
    (beforeBlank : IsBlank before)
    (blanksBlank : IsBlank blanks)
    (indentBlank : IsBlank indent)
    (endingBlank : IsBlank ending)
    (isClosing : IsClosing closing)
    {items : List CJSON}
    (visible : ∀ item ∈ items, ∃ first tail,
      text item = first :: tail ∧ 32 < first ∧ first ≠ closing)
    (reads : ∀ item ∈ items,
      ReadsEntry entry (text item) (copy item) ∨ StuckEntry entry (text item))
    (stuck : ∃ item ∈ items, StuckEntry entry (text item))
    (rest : Bytes) :
    ∃ ep, parseContainer opening closing entry
        (opening :: (before ++
          (compose (comma :: blanks)
            (items.map fun item => indent ++ text item) ++
            (ending ++ closing :: rest)))) = .error (.malformed ep) := by
  cases items with
  | nil =>
      obtain ⟨item, present, -⟩ := stuck
      cases present
  | cons item items =>
      obtain ⟨visibleItem, -⟩ := List.forall_mem_cons.mp visible
      rw [parseContainer_compose_cons opening beforeBlank indentBlank visibleItem]
      obtain ⟨readsItem, reads⟩ := List.forall_mem_cons.mp reads
      by_cases itemStuck : StuckEntry entry (text item)
      · have tried := itemStuck [] isBlank_nil
          (remainder (blanks ++ indent) ending text items (closing :: rest))
        rw [List.nil_append] at tried
        rcases tried with ⟨ep, rejected⟩ | ⟨child, letter, following, read, isLetter⟩
        · rw [rejected]
          exact ⟨ep, rfl⟩
        · refine ⟨letter :: following, ?_⟩
          rw [read, Outcome.ok_bind, List.length_cons,
            parseEntries_of_ne_comma isLetter.ne_comma]
          exact if_neg (isLetter.ne_closing isClosing)
      · obtain ⟨following, skipped, long⟩ :=
          exists_skip_remainder endingBlank isClosing items rest
        obtain ⟨child, readChild, -⟩ :=
          readsItem.resolve_right itemStuck isBlank_nil
            (delimited_remainder endingBlank isClosing items rest) skipped
        rw [List.nil_append] at readChild
        have later := (List.or_exists_of_exists_mem_cons stuck).resolve_left itemStuck
        rw [readChild, Outcome.ok_bind]
        rcases stuck_parseEntries (blanksBlank.append indentBlank) endingBlank isClosing
          reads later long skipped with ⟨ep, rejected⟩ |
            ⟨children, letter, last, read, isLetter⟩
        · rw [rejected]
          exact ⟨ep, rfl⟩
        · refine ⟨letter :: last, ?_⟩
          rw [read, Outcome.ok_bind, peek_cons, Outcome.ok_bind]
          exact if_neg (isLetter.ne_closing isClosing)

end Entries

/-! ## Elements and members -/

section Values

variable {parse : CJSON → Bytes → Except ParseError (CJSON × Bytes)}
variable {text : Bytes}

theorem stuckEntry_element
    (visible : Visible text)
    (stuck : StuckValue parse text) :
    StuckEntry (parseElement parse) text := by
  intro blanks blank after
  have value : parseElement parse (blanks ++ (text ++ after)) =
      parse newItem (text ++ after) >>= fun result => do
        return (result.1, ← skip result.2) := by
    rw [parseElement, visible.skip blank]
    rfl
  rw [value]
  exact (stuck newItem after).bind_skip

theorem stuckEntry_member
    {gap : Bytes}
    (gapBlank : IsBlank gap)
    (visible : Visible text)
    (stuck : StuckValue parse text)
    (name : CString) :
    StuckEntry (parseMember parse)
      (printStringPtr (some name) ++ colon :: (gap ++ text)) := by
  intro blanks blank after
  have nameVisible : Visible (printStringPtr (some name)) :=
    ⟨quote, _, rfl, by decide, by decide⟩
  have colonVisible : skip (colon :: (gap ++ (text ++ after))) =
      .ok (colon :: (gap ++ (text ++ after))) :=
    skip_of_lt (by decide) _
  have value : parseMember parse
      (blanks ++ (printStringPtr (some name) ++ colon :: (gap ++ text) ++ after)) =
        parse { newItem with type := .string, string := some name } (text ++ after) >>=
          fun result => do return (result.1, ← skip result.2) := by
    rw [List.append_assoc, List.cons_append, List.append_assoc]
    simp only [parseMember, nameVisible.skip blank, Outcome.ok_bind,
      parseString_printStringPtr, colonVisible, peek_cons, ne_eq,
      not_true_eq_false, if_false, List.drop_succ_cons, List.drop_zero,
      visible.skip gapBlank]
    rfl
  rw [value]
  exact (stuck _ after).bind_skip

end Values

/-! ## Texts of other numbers -/

/-- The words are no values. -/
theorem stuckValue_formatNotFinite (number : Rat) (fuel : Nat) :
    StuckValue (parseValue (fuel + 1)) (formatNotFinite number) := by
  intro new after
  unfold formatNotFinite signOf
  split <;> split
  · exact .inr ⟨_, _, _, rfl, .inr rfl⟩
  · exact .inr ⟨_, _, _, rfl, .inl rfl⟩
  · exact .inl ⟨_, rfl⟩
  · exact .inl ⟨_, rfl⟩

/-- The text of an item that is written in full is visible. -/
theorem visible_printDouble
    {item : CJSON}
    (printable : item.PrintableNode)
    (depth : Nat)
    (fmt : Bool) :
    Visible (item.printValueWith printDouble depth fmt) := by
  cases type : item.type with
  | number =>
      rw [printValueWith_number _ depth fmt type, printDouble]
      split
      case isTrue =>
        rw [← printValue_number depth fmt type]
        exact visible_printValue printable depth fmt
      case isFalse =>
        unfold formatNotFinite signOf
        split <;> split <;> exact ⟨_, _, rfl, by decide, by decide⟩
  | array =>
      rw [printValueWith_array _ depth fmt type]
      exact ⟨_, _, rfl, by decide, by decide⟩
  | object =>
      rw [printValueWith_object _ depth fmt type, printObject]
      cases fmt <;> split <;> exact ⟨_, _, rfl, by decide, by decide⟩
  | false | true | null | string =>
      have same : item.printValueWith printDouble depth fmt =
          item.printValue depth fmt := by
        cases item
        subst type
        rfl
      rw [same]
      exact visible_printValue printable depth fmt

section Containers

variable {items : List CJSON}
variable {text : CJSON → Bytes}
variable {copy : CJSON → CJSON}
variable {fuel : Nat}
variable (visible : ∀ item ∈ items, Visible (text item))
variable (reads : ∀ item ∈ items,
  ReadsValue (parseValue fuel) (text item) (copy item) ∨
    StuckValue (parseValue fuel) (text item))
variable (stuck : ∃ item ∈ items, StuckValue (parseValue fuel) (text item))

include visible reads stuck

/-- An array with an element that is no value. -/
theorem parseValue_printArray_malformed
    (unnamed : ∀ item ∈ items, (copy item).string = none)
    (fmt : Bool)
    (new : CJSON)
    (rest : Bytes) :
    ∃ ep, parseValue (fuel + 1) new (printArray (items.map text) fmt ++ rest) =
      .error (.malformed ep) := by
  have gapBlank : IsBlank (if fmt then [space] else []) := by
    cases fmt with
    | false => exact isBlank_nil
    | true => exact isBlank_replicate 1 (by decide)
  have readsEntry : ∀ item ∈ items,
      ReadsEntry (parseElement (parseValue fuel)) (text item) (copy item) ∨
        StuckEntry (parseElement (parseValue fuel)) (text item) := by
    intro item present
    exact (reads item present).imp
      (fun read => readsEntry_element (visible item present) read (unnamed item present))
      (stuckEntry_element (visible item present))
  have stuckEntry : ∃ item ∈ items,
      StuckEntry (parseElement (parseValue fuel)) (text item) := by
    obtain ⟨item, present, itemStuck⟩ := stuck
    exact ⟨item, present, stuckEntry_element (visible item present) itemStuck⟩
  obtain ⟨ep, rejected⟩ :=
    parseContainer_malformed openBracket isBlank_nil gapBlank isBlank_nil
      isBlank_nil (Or.inl rfl) visible readsEntry stuckEntry rest
  have spelled : printArray (items.map text) fmt ++ rest =
      openBracket :: ([] ++
        (compose (comma :: if fmt then [space] else [])
          (items.map fun item => [] ++ text item) ++
          ([] ++ closeBracket :: rest))) := by
    simp [printArray]
  refine ⟨ep, ?_⟩
  rw [spelled]
  change parseArray (parseValue fuel) new _ = _
  rw [parseArray, rejected]
  rfl

/-- An object with the text of a member that is no value. -/
theorem parseValue_printObject_malformed
    (named : ∀ item ∈ items, item.string.isSome)
    (sameName : ∀ item, (copy item).string = item.string)
    (depth : Nat)
    (fmt : Bool)
    (new : CJSON)
    (rest : Bytes) :
    ∃ ep, parseValue (fuel + 1) new
        (printObject
          (items.map fun item => (printStringPtr item.string, text item))
          depth fmt ++ rest) = .error (.malformed ep) := by
  obtain ⟨before, indent, gap, ending, beforeBlank, indentBlank, gapBlank,
    endingBlank, spelled⟩ :=
    exists_printObject_eq
      (items.map fun item => (printStringPtr item.string, text item)) depth fmt
  have readsEntry : ∀ item ∈ items,
      ReadsEntry (parseMember (parseValue fuel))
          (printStringPtr item.string ++ colon :: (gap ++ text item)) (copy item) ∨
        StuckEntry (parseMember (parseValue fuel))
          (printStringPtr item.string ++ colon :: (gap ++ text item)) := by
    intro item present
    obtain ⟨name, isNamed⟩ := Option.isSome_iff_exists.mp (named item present)
    rw [isNamed]
    exact (reads item present).imp
      (fun read => readsEntry_member gapBlank (visible item present) read
        ((sameName item).trans isNamed))
      fun itemStuck => stuckEntry_member gapBlank (visible item present) itemStuck name
  have stuckEntry : ∃ item ∈ items, StuckEntry (parseMember (parseValue fuel))
      (printStringPtr item.string ++ colon :: (gap ++ text item)) := by
    obtain ⟨item, present, itemStuck⟩ := stuck
    obtain ⟨name, isNamed⟩ := Option.isSome_iff_exists.mp (named item present)
    refine ⟨item, present, ?_⟩
    rw [isNamed]
    exact stuckEntry_member gapBlank (visible item present) itemStuck name
  have startsWithQuote : ∀ item ∈ items, ∃ first tail,
      printStringPtr item.string ++ colon :: (gap ++ text item) =
        first :: tail ∧ 32 < first ∧ first ≠ closeBrace := by
    intro item present
    obtain ⟨name, isNamed⟩ := Option.isSome_iff_exists.mp (named item present)
    rw [isNamed]
    exact ⟨quote, _, rfl, by decide, by decide⟩
  obtain ⟨ep, rejected⟩ :=
    parseContainer_malformed openBrace beforeBlank beforeBlank indentBlank
      endingBlank (Or.inr rfl) startsWithQuote readsEntry stuckEntry rest
  refine ⟨ep, ?_⟩
  rw [spelled, List.map_map]
  simp only [List.cons_append, List.append_assoc, List.nil_append,
    Function.comp_def]
  change parseObject (parseValue fuel) new _ = _
  simp only [parseObject, rejected]
  rfl

end Containers

section Printed

variable {item : CJSON} {depth : Nat} {fmt : Bool} {fuel : Nat}
variable (enough : (item.printValueWith printDouble depth fmt).length < fuel)

include enough

/-- An item is read where its numbers are finite. -/
theorem readsValue_printDouble
    (printable : item.Printable)
    (finite : item.HoldsFinite) :
    ReadsValue (parseValue fuel) (item.printValueWith printDouble depth fmt)
      item.reread := by
  intro after delimited new
  rw [printValueWith_printDouble finite] at enough ⊢
  exact parseValue_printValue printable depth fmt enough new fun _ => delimited

/-- The parser is stuck in any other item if it is in the arrays and objects. -/
theorem stuckValue_printDouble
    (notFinite : ¬ item.HoldsFinite)
    (malformed : item.IsContainer → ∀ new rest, ∃ ep,
      parseValue fuel new (item.printValueWith printDouble depth fmt ++ rest) =
        .error (.malformed ep)) :
    StuckValue (parseValue fuel) (item.printValueWith printDouble depth fmt) := by
  intro new after
  rcases not_holdsFinite_cases notFinite with ⟨number, itself⟩ | ⟨container, -⟩
  · rw [printValueWith_number _ _ _ number, printDouble, if_neg itself]
    obtain ⟨fuel, rfl⟩ := Nat.exists_eq_add_one.mpr (Nat.zero_lt_of_lt enough)
    exact stuckValue_formatNotFinite _ fuel new after
  · exact .inl (malformed container new after)

end Printed

/-- An array or object with a number that is not finite is malformed. -/
theorem parseValue_printDouble_malformed
    {item : CJSON}
    (printable : item.Printable)
    (container : item.IsContainer)
    (notFinite : ¬ item.HoldsFinite)
    (depth : Nat)
    (fmt : Bool)
    {fuel : Nat}
    (enough : (item.printValueWith printDouble depth fmt).length < fuel)
    (new : CJSON)
    (rest : Bytes) :
    ∃ ep, parseValue fuel new (item.printValueWith printDouble depth fmt ++ rest) =
      .error (.malformed ep) := by
  induction item using CJSON.induction generalizing depth fuel new rest with
  | node item inductionHypothesis =>
      obtain ⟨fuel, rfl⟩ := Nat.exists_eq_add_one.mpr (Nat.zero_lt_of_lt enough)
      have childPrintable (child : CJSON) (present : child ∈ item.child) :
          child.Printable := printable.of_mem_child container present
      have visible : ∀ child ∈ item.child,
          Visible (child.printValueWith printDouble (depth + 1) fmt) :=
        fun child present =>
          visible_printDouble (childPrintable child present).node (depth + 1) fmt
      have stuckChild (child : CJSON) (present : child ∈ item.child)
          (shorter : (child.printValueWith printDouble (depth + 1) fmt).length < fuel)
          (infinite : ¬ child.HoldsFinite) :
          StuckValue (parseValue fuel)
            (child.printValueWith printDouble (depth + 1) fmt) :=
        stuckValue_printDouble shorter infinite fun below =>
          inductionHypothesis child present (childPrintable child present) below infinite
            (depth + 1) shorter
      obtain ⟨spoilt, isChild, infinite⟩ := exists_child_of_not_holdsFinite container notFinite
      rcases container with type | type
      · rw [printValueWith_array _ depth fmt type] at enough ⊢
        have shorter : ∀ child ∈ item.child,
            (child.printValueWith printDouble (depth + 1) fmt).length < fuel := by
          intro child present
          have part := length_lt_printArray
            (fun child => child.printValueWith printDouble (depth + 1) fmt) fmt present
          exact Nat.lt_of_lt_of_le part (Nat.le_of_lt_succ enough)
        refine @parseValue_printArray_malformed item.child _
          (fun child => { child.reread with string := none }) fuel visible
          (fun child present => ?_)
          ⟨spoilt, isChild, stuckChild spoilt isChild (shorter spoilt isChild) infinite⟩
          (fun _ _ => rfl) fmt new rest
        by_cases finite : child.HoldsFinite
        · refine .inl fun delimited new => ?_
          rw [content_with_string]
          exact readsValue_printDouble (shorter child present)
            (childPrintable child present) finite delimited new
        · exact .inr (stuckChild child present (shorter child present) finite)
      · rw [printValueWith_object _ depth fmt type] at enough ⊢
        have shorter : ∀ child ∈ item.child,
            (child.printValueWith printDouble (depth + 1) fmt).length < fuel := by
          intro child present
          have part := length_lt_printObject
            (fun child => printStringPtr child.string)
            (fun child => child.printValueWith printDouble (depth + 1) fmt) depth fmt
            present
          exact Nat.lt_of_lt_of_le part (Nat.le_of_lt_succ enough)
        refine parseValue_printObject_malformed visible (fun child present => ?_)
          ⟨spoilt, isChild, stuckChild spoilt isChild (shorter spoilt isChild) infinite⟩
          (printable.node.members type) reread_string depth fmt new rest
        by_cases finite : child.HoldsFinite
        · exact .inl (readsValue_printDouble (shorter child present)
            (childPrintable child present) finite)
        · exact .inr (stuckChild child present (shorter child present) finite)

/-- `cJSON_Parse` returns a null pointer for its text. -/
theorem parse_printDouble_malformed
    {item : CJSON}
    (printable : item.Printable)
    (container : item.IsContainer)
    (notFinite : ¬ item.HoldsFinite)
    (fmt : Bool)
    (rest : Bytes) :
    ∃ ep, parse (item.printValueWith printDouble 0 fmt ++ rest) =
      .error (.malformed ep) := by
  have skipped := (visible_printDouble printable.node 0 fmt).skip isBlank_nil rest
  rw [List.nil_append] at skipped
  have enough : (item.printValueWith printDouble 0 fmt).length <
      (item.printValueWith printDouble 0 fmt ++ rest).length + 1 := by
    rw [List.length_append]
    omega
  obtain ⟨ep, rejected⟩ := parseValue_printDouble_malformed printable container notFinite
    0 fmt enough newItem rest
  refine ⟨ep, ?_⟩
  simp only [parse, parseWithOpts, skipped, Outcome.ok_bind, rejected]
  rfl

end CJSON
end ProtobufSandbox
