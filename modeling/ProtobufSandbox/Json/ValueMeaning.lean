import ProtobufSandbox.Json.NotFinite
import ProtobufSandbox.Json.TextMeaning

/-!
# What a whole text means to the parser

Arrays and objects are read entry by entry, whatever blanks stand between the parts of
the text. A text of the grammar becomes the tree of its value, down to every field of
every item.
-/

namespace ProtobufSandbox

open JsonText CJSON

namespace CJSON

mutual

/-- An item into which a value is written. -/
def ofValue (new : CJSON) : Value → CJSON
  | .null => { new with type := .null }
  | .bool false => { new with type := .false }
  | .bool true => { new with type := .true, valueint := 1 }
  | .number n => { new with valuedouble := n, valueint := toInt n, type := .number }
  | .string chars =>
      { new with valuestring := some (CString.ofChars chars), type := .string }
  | .array elements => { new with type := .array, child := ofElements elements }
  | .object members => { new with type := .object, child := ofMembers members }

def ofElements : List Value → List CJSON
  | [] => []
  | element :: elements => ofValue newItem element :: ofElements elements

def ofMembers : List (List Char × Value) → List CJSON
  | [] => []
  | (name, value) :: members =>
      ofValue { newItem with string := some (CString.ofChars name) } value ::
        ofMembers members

end

/-- The type that an item had is written over. -/
theorem ofValue_with_type
    (new : CJSON)
    (type : CJSONType)
    (value : Value) :
    ofValue { new with type := type } value = ofValue new value := by
  cases value with
  | bool b => cases b <;> rfl
  | null | number | string | array | object => rfl

theorem ofValue_string
    (new : CJSON)
    (value : Value) :
    (ofValue new value).string = new.string := by
  cases value with
  | bool b => cases b <;> rfl
  | null | number | string | array | object => rfl

end CJSON

/-! ## Blanks -/

theorem isBlank_of_blank
    {text : Bytes}
    (blank : Blank text) :
    IsBlank text := by
  intro byte present
  rcases blank byte present with rfl | rfl | rfl | rfl <;> decide

/-- Nothing is left to skip. -/
theorem skip_idempotent
    {value skipped : Bytes}
    (isSkipped : skip value = .ok skipped) :
    skip skipped = .ok skipped := by
  induction value with
  | nil => cases isSkipped
  | cons byte value inductionHypothesis =>
      rw [skip] at isSkipped
      split_ifs at isSkipped with blank
      · exact inductionHypothesis isSkipped
      · obtain rfl := Except.ok.inj isSkipped
        exact if_neg blank

theorem skip_blank
    {blanks : Bytes}
    (blank : Blank blanks)
    {byte : UInt8}
    (visible : 32 < byte)
    (rest : Bytes) :
    skip (blanks ++ byte :: rest) = .ok (byte :: rest) := by
  rw [skip_append (isBlank_of_blank blank), skip_of_lt visible]

theorem delimited_blank
    {blanks rest : Bytes}
    (blank : Blank blanks)
    (delimited : Delimited rest) :
    Delimited (blanks ++ rest) := by
  cases blanks with
  | nil => exact delimited
  | cons byte blanks =>
      exact delimited_of_blank (isBlank_of_blank blank byte List.mem_cons_self) _

/-! ## The first byte of a value -/

/-- A byte that starts a value is seen, and closes nothing. -/
def Starts (byte : UInt8) : Prop :=
  32 < byte ∧ byte ≠ closeBracket ∧ byte ≠ closeBrace

instance : DecidablePred Starts :=
  fun byte => inferInstanceAs (Decidable (32 < byte ∧ byte ≠ closeBracket ∧ byte ≠ closeBrace))

theorem starts_of_isDigit :
    ∀ byte : UInt8, Decimal.isDigit byte = true → Starts byte :=
  forall_byte (by decide)

theorem isDigit_of_le :
    ∀ byte : UInt8, 0x31 ≤ byte ∧ byte ≤ 0x39 → Decimal.isDigit byte = true :=
  forall_byte (by decide)

theorem Number.numeric
    {allowed : Numerals}
    {text : Bytes}
    {n : Rat}
    (isNumber : Number allowed text n) :
    ∃ first tail, text = first :: tail ∧
      (first = minus ∨ Decimal.isDigit first = true) := by
  cases isNumber with
  | parts isSign isWhole isFraction isExponent isAllowed =>
      cases isSign with
      | minus => exact ⟨_, _, rfl, .inl rfl⟩
      | plus =>
          cases isWhole with
          | zero => exact ⟨_, _, rfl, .inr rfl⟩
          | digits positive others =>
              exact ⟨_, _, rfl, .inr (isDigit_of_le _ positive)⟩

theorem Means.starts
    {allowed : Numerals}
    {text : Bytes}
    {value : Value}
    (means : Means allowed text value) :
    ∃ first tail, text = first :: tail ∧ Starts first := by
  cases means with
  | number isNumber =>
      obtain ⟨first, tail, rfl, numeric⟩ := Number.numeric isNumber
      refine ⟨first, tail, rfl, ?_⟩
      rcases numeric with rfl | isDigit
      · decide
      · exact starts_of_isDigit first isDigit
  | null | isFalse | isTrue | string | emptyArray | array | emptyObject | object =>
      exact ⟨_, _, rfl, by decide⟩

/-! ## Entries -/

section Entries

variable {entry : Bytes → Except ParseError (CJSON × Bytes)}
variable {closing : UInt8}

/-- A text that is read as the entries of a container, up to its closing bracket. -/
def ReadsEntries
    (entry : Bytes → Except ParseError (CJSON × Bytes))
    (closing : UInt8)
    (text : Bytes)
    (children : List CJSON) : Prop :=
  ∀ rest, ∃ first others middle,
    children = first :: others ∧
    (∃ byte tail, skip (text ++ closing :: rest) = .ok (byte :: tail) ∧ byte ≠ closing) ∧
    entry (text ++ closing :: rest) = .ok (first, middle) ∧
    others.length < middle.length ∧
    ∀ turns, others.length < turns →
      parseEntries entry turns middle = .ok (others, closing :: rest)

/-- The last entry. -/
theorem readsEntries_last
    (isClosing : IsClosing closing)
    {text : Bytes}
    {child : CJSON}
    (start : ∀ rest, ∃ byte tail, skip (text ++ rest) = .ok (byte :: tail) ∧ byte ≠ closing)
    (read : ∀ rest, entry (text ++ closing :: rest) = .ok (child, closing :: rest)) :
    ReadsEntries entry closing text [child] := by
  intro rest
  refine ⟨child, [], closing :: rest, rfl, start _, read rest, Nat.succ_pos _, ?_⟩
  intro turns enough
  cases turns with
  | zero => cases enough
  | succ turns =>
      rw [parseEntries, peek_cons, Outcome.ok_bind, if_pos isClosing.ne_comma]
      rfl

/-- An entry in front of others. -/
theorem readsEntries_more
    {text others : Bytes}
    {child : CJSON}
    {children : List CJSON}
    (start : ∀ rest, ∃ byte tail, skip (text ++ rest) = .ok (byte :: tail) ∧ byte ≠ closing)
    (read : ∀ rest, entry (text ++ comma :: rest) = .ok (child, comma :: rest))
    (few : children.length ≤ others.length + 1)
    (readsOthers : ReadsEntries entry closing others children) :
    ReadsEntries entry closing (text ++ comma :: others) (child :: children) := by
  intro rest
  obtain ⟨first, left, middle, rfl, -, readFirst, -, readLeft⟩ := readsOthers rest
  rw [List.append_assoc, List.cons_append]
  refine ⟨child, first :: left, comma :: (others ++ closing :: rest), rfl, start _, read _,
    ?_, ?_⟩
  · simp only [List.length_cons, List.length_append] at few ⊢
    omega
  · intro turns enough
    cases turns with
    | zero => cases enough
    | succ turns =>
        have readOthers := readLeft turns (Nat.lt_of_succ_lt_succ enough)
        simp only [parseEntries, peek_cons, Outcome.ok_bind, ne_eq, not_true_eq_false,
          if_false, List.drop_succ_cons, List.drop_zero, readFirst, readOthers]
        rfl

/-- A container with entries. -/
theorem parseContainer_reads
    (opening : UInt8)
    (skips : ∀ {value skipped : Bytes}, skip value = .ok skipped →
      entry value = entry skipped)
    {text : Bytes}
    {children : List CJSON}
    (reads : ReadsEntries entry closing text children)
    (rest : Bytes) :
    parseContainer opening closing entry (opening :: (text ++ closing :: rest)) =
      .ok (children, rest) := by
  obtain ⟨first, others, middle, rfl, ⟨byte, tail, skipped, notClosing⟩, readFirst, enough,
    readOthers⟩ := reads rest
  rw [skips skipped] at readFirst
  simp only [parseContainer, peek_cons, Outcome.ok_bind, ne_eq, not_true_eq_false, if_false,
    List.drop_succ_cons, List.drop_zero, skipped, if_neg notClosing, readFirst,
    readOthers middle.length enough, if_true]
  rfl

/-- A container with nothing but blanks. -/
theorem parseContainer_blank
    (opening : UInt8)
    (isClosing : IsClosing closing)
    {blanks : Bytes}
    (blank : Blank blanks)
    (rest : Bytes) :
    parseContainer opening closing entry (opening :: (blanks ++ closing :: rest)) =
      .ok ([], rest) := by
  have skipped := skip_blank blank isClosing.visible rest
  simp only [parseContainer, peek_cons, Outcome.ok_bind, ne_eq, not_true_eq_false, if_false,
    List.drop_succ_cons, List.drop_zero, skipped, if_true]
  rfl

end Entries

/-! ## Values -/

theorem parseValue_bracket
    (depth : Nat)
    (new : CJSON)
    (tail : Bytes) :
    parseValue (depth + 1) new (openBracket :: tail) =
      parseArray (parseValue depth) new (openBracket :: tail) := by
  simp [parseValue, ascii, startsWith, openBracket, quote, minus, Decimal.isDigit]

theorem parseValue_brace
    (depth : Nat)
    (new : CJSON)
    (tail : Bytes) :
    parseValue (depth + 1) new (openBrace :: tail) =
      parseObject (parseValue depth) new (openBrace :: tail) := by
  simp [parseValue, ascii, startsWith, openBrace, openBracket, quote, minus, Decimal.isDigit]

theorem parseValue_quote
    (depth : Nat)
    (new : CJSON)
    (tail : Bytes) :
    parseValue (depth + 1) new (quote :: tail) = parseString new (quote :: tail) := by
  simp [parseValue, ascii, startsWith, quote]

/-- An element is read with the blanks around it. -/
theorem parseElement_meaning
    {parse : CJSON → Bytes → Except ParseError (CJSON × Bytes)}
    {before text behind rest : Bytes}
    {byte : UInt8}
    {child : CJSON}
    (blankBefore : Blank before)
    (starts : ∃ first tail, text = first :: tail ∧ Starts first)
    (read : parse newItem (text ++ (behind ++ byte :: rest)) =
      .ok (child, behind ++ byte :: rest))
    (blankBehind : Blank behind)
    (visible : 32 < byte) :
    parseElement parse (before ++ (text ++ (behind ++ byte :: rest))) =
      .ok (child, byte :: rest) := by
  obtain ⟨first, tail, rfl, isStart⟩ := starts
  have skipped := skip_blank blankBefore isStart.1 (tail ++ (behind ++ byte :: rest))
  rw [List.cons_append] at read ⊢
  rw [parseElement, skipped, Outcome.ok_bind, read, Outcome.ok_bind]
  dsimp only
  rw [skip_blank blankBehind visible]
  rfl

/-- A member is read with the blanks around it. -/
theorem parseMember_meaning
    {parse : CJSON → Bytes → Except ParseError (CJSON × Bytes)}
    {before name gap start text behind rest : Bytes}
    {chars : List Char}
    {byte : UInt8}
    {child : CJSON}
    (blankBefore : Blank before)
    (characters : JsonText.Characters name chars)
    (blankGap : Blank gap)
    (blankStart : Blank start)
    (starts : ∃ first tail, text = first :: tail ∧ Starts first)
    (read : parse { newItem with string := some (CString.ofChars chars), type := .string }
      (text ++ (behind ++ byte :: rest)) = .ok (child, behind ++ byte :: rest))
    (blankBehind : Blank behind)
    (visible : 32 < byte) :
    parseMember parse (before ++ (0x22 :: (name ++ 0x22 :: (gap ++ 0x3A :: (start ++ text))) ++
      (behind ++ byte :: rest))) = .ok (child, byte :: rest) := by
  obtain ⟨first, tail, rfl, isStart⟩ := starts
  have skippedBefore := @skip_blank before blankBefore quote (by decide)
  have skippedGap := @skip_blank gap blankGap colon (by decide)
    (start ++ (first :: tail ++ (behind ++ byte :: rest)))
  have skippedStart := skip_blank blankStart isStart.1 (tail ++ (behind ++ byte :: rest))
  have named := parseString_meaning characters newItem
    (gap ++ colon :: (start ++ (first :: tail ++ (behind ++ byte :: rest))))
  have shape : before ++ (0x22 :: (name ++ 0x22 :: (gap ++ 0x3A :: (start ++ first :: tail))) ++
      (behind ++ byte :: rest)) = before ++ quote :: (name ++ quote ::
        (gap ++ colon :: (start ++ (first :: tail ++ (behind ++ byte :: rest))))) := by
    simp [quote, colon]
  rw [shape, parseMember, skippedBefore, Outcome.ok_bind, named, Outcome.ok_bind]
  dsimp only
  rw [skippedGap, Outcome.ok_bind, peek_cons, Outcome.ok_bind, if_neg (not_not.mpr rfl),
    List.drop_succ_cons, List.drop_zero, List.cons_append, skippedStart, Outcome.ok_bind,
    ← List.cons_append]
  have unvalued : newItem.valuestring = none := rfl
  dsimp only at read
  rw [unvalued] at read
  rw [read, Outcome.ok_bind]
  dsimp only
  rw [skip_blank blankBehind visible]
  rfl

theorem skips_element
    (parse : CJSON → Bytes → Except ParseError (CJSON × Bytes))
    {value skipped : Bytes}
    (isSkipped : skip value = .ok skipped) :
    parseElement parse value = parseElement parse skipped := by
  rw [parseElement, parseElement, isSkipped, skip_idempotent isSkipped]

theorem skips_member
    (parse : CJSON → Bytes → Except ParseError (CJSON × Bytes))
    {value skipped : Bytes}
    (isSkipped : skip value = .ok skipped) :
    parseMember parse value = parseMember parse skipped := by
  rw [parseMember, parseMember, isSkipped, skip_idempotent isSkipped]

/-- Where an entry starts, its container does not close. -/
theorem exists_start
    {before text : Bytes}
    (blank : Blank before)
    {closing : UInt8}
    (isClosing : IsClosing closing)
    (starts : ∃ first tail, text = first :: tail ∧ Starts first)
    (behind rest : Bytes) :
    ∃ byte tail, skip (before ++ (text ++ behind) ++ rest) = .ok (byte :: tail) ∧
      byte ≠ closing := by
  obtain ⟨first, tail, rfl, isStart⟩ := starts
  refine ⟨first, tail ++ behind ++ rest, ?_, ?_⟩
  · rw [List.append_assoc]
    exact skip_blank blank isStart.1 (tail ++ behind ++ rest)
  · rcases isClosing with rfl | rfl
    · exact isStart.2.1
    · exact isStart.2.2

theorem Member.starts
    {allowed : Numerals}
    {text : Bytes}
    {member : List Char × Value}
    (isMember : Member allowed text member) :
    ∃ first tail, text = first :: tail ∧ Starts first := by
  cases isMember
  exact ⟨_, _, rfl, by decide⟩

theorem delimited_closing
    {closing : UInt8}
    (isClosing : IsClosing closing)
    (rest : Bytes) :
    Delimited (closing :: rest) := by
  rcases isClosing with rfl | rfl <;> exact ⟨by decide, by decide, by decide, by decide⟩

theorem delimited_comma (rest : Bytes) : Delimited (comma :: rest) :=
  ⟨by decide, by decide, by decide, by decide⟩

/-- A text that is read as a value, wherever it ends. -/
def ValueRead (text : Bytes) (value : Value) : Prop :=
  ∀ {depth : Nat}, text.length ≤ depth → ∀ (new : CJSON) {after : Bytes}, Delimited after →
    parseValue (depth + 1) new (text ++ after) = .ok (ofValue new value, after)

/-- A text that is read as entries, of which there are not more than it is long. -/
def EntriesRead
    (entry : (CJSON → Bytes → Except ParseError (CJSON × Bytes)) →
      Bytes → Except ParseError (CJSON × Bytes))
    (closing : UInt8)
    (text : Bytes)
    (children : List CJSON) : Prop :=
  children.length ≤ text.length + 1 ∧
    ∀ {depth : Nat}, text.length ≤ depth →
      ReadsEntries (entry (parseValue (depth + 1))) closing text children

theorem valueRead_number
    {allowed : Numerals}
    {text : Bytes}
    {n : Rat}
    (isNumber : Number allowed text n) :
    ValueRead text (.number n) := by
  intro depth deep new after delimited
  obtain ⟨first, tail, rfl, numeric⟩ := Number.numeric isNumber
  rw [List.cons_append, parseValue_number numeric, ← List.cons_append]
  exact parseNumber_meaning isNumber new delimited

theorem valueRead_string
    {text : Bytes}
    {chars : List Char}
    (characters : JsonText.Characters text chars) :
    ValueRead (0x22 :: (text ++ [0x22])) (.string chars) := by
  intro depth deep new after delimited
  rw [List.cons_append, List.append_assoc]
  exact (parseValue_quote depth new _).trans (parseString_meaning characters new after)

theorem valueRead_emptyArray
    {blanks : Bytes}
    (blank : Blank blanks) :
    ValueRead (0x5B :: (blanks ++ [0x5D])) (.array []) := by
  intro depth deep new after delimited
  have read := @parseContainer_blank (parseElement (parseValue depth)) closeBracket
    openBracket (.inl rfl) blanks blank after
  rw [List.cons_append, List.append_assoc]
  refine (parseValue_bracket depth new _).trans ?_
  rw [parseArray]
  exact congrArg (· >>= _) read

theorem valueRead_emptyObject
    {blanks : Bytes}
    (blank : Blank blanks) :
    ValueRead (0x7B :: (blanks ++ [0x7D])) (.object []) := by
  intro depth deep new after delimited
  have read := @parseContainer_blank (parseMember (parseValue depth)) closeBrace
    openBrace (.inr rfl) blanks blank after
  rw [List.cons_append, List.append_assoc]
  refine (parseValue_brace depth new _).trans ?_
  rw [parseObject]
  exact congrArg (· >>= _) read

theorem valueRead_array
    {text : Bytes}
    {elements : List Value}
    (reads : EntriesRead parseElement closeBracket text (ofElements elements)) :
    ValueRead (0x5B :: (text ++ [0x5D])) (.array elements) := by
  intro depth deep new after delimited
  simp only [List.length_cons, List.length_append, List.length_nil] at deep
  obtain ⟨depth, rfl⟩ : ∃ shallower, depth = shallower + 1 := ⟨depth - 1, by omega⟩
  have read := parseContainer_reads openBracket (skips_element (parseValue (depth + 1)))
    (reads.2 (by omega)) after
  rw [List.cons_append, List.append_assoc]
  refine (parseValue_bracket (depth + 1) new _).trans ?_
  rw [parseArray]
  exact congrArg (· >>= _) read

theorem valueRead_object
    {text : Bytes}
    {members : List (List Char × Value)}
    (reads : EntriesRead parseMember closeBrace text (ofMembers members)) :
    ValueRead (0x7B :: (text ++ [0x7D])) (.object members) := by
  intro depth deep new after delimited
  simp only [List.length_cons, List.length_append, List.length_nil] at deep
  obtain ⟨depth, rfl⟩ : ∃ shallower, depth = shallower + 1 := ⟨depth - 1, by omega⟩
  have read := parseContainer_reads openBrace (skips_member (parseValue (depth + 1)))
    (reads.2 (by omega)) after
  rw [List.cons_append, List.append_assoc]
  refine (parseValue_brace (depth + 1) new _).trans ?_
  rw [parseObject]
  exact congrArg (· >>= _) read

/-- An entry that is read in front of a comma or of the closing bracket. -/
def EntryRead
    (entry : (CJSON → Bytes → Except ParseError (CJSON × Bytes)) →
      Bytes → Except ParseError (CJSON × Bytes))
    (text : Bytes)
    (child : CJSON) : Prop :=
  ∀ {depth : Nat}, text.length ≤ depth → ∀ {before behind rest : Bytes} {byte : UInt8},
    Blank before → Blank behind → 32 < byte → Delimited (byte :: rest) →
      entry (parseValue (depth + 1)) (before ++ (text ++ (behind ++ byte :: rest))) =
        .ok (child, byte :: rest)

theorem entryRead_element
    {text : Bytes}
    {value : Value}
    (starts : ∃ first tail, text = first :: tail ∧ Starts first)
    (read : ValueRead text value) :
    EntryRead parseElement text (ofValue newItem value) := by
  intro depth deep before behind rest byte blankBefore blankBehind visible delimited
  exact parseElement_meaning blankBefore starts
    (read deep newItem (delimited_blank blankBehind delimited)) blankBehind visible

theorem entryRead_member
    {name gap start text : Bytes}
    {chars : List Char}
    {value : Value}
    (characters : JsonText.Characters name chars)
    (blankGap : Blank gap)
    (blankStart : Blank start)
    (starts : ∃ first tail, text = first :: tail ∧ Starts first)
    (read : ValueRead text value) :
    EntryRead parseMember (0x22 :: (name ++ 0x22 :: (gap ++ 0x3A :: (start ++ text))))
      (ofValue { newItem with string := some (CString.ofChars chars) } value) := by
  intro depth deep before behind rest byte blankBefore blankBehind visible delimited
  have few : text.length ≤ depth := by
    simp only [List.length_append, List.length_cons] at deep
    omega
  have member := parseMember_meaning blankBefore characters blankGap blankStart starts
    (read few { newItem with string := some (CString.ofChars chars), type := .string }
      (delimited_blank blankBehind delimited)) blankBehind visible
  have retyped := ofValue_with_type
    { newItem with string := some (CString.ofChars chars) } .string value
  exact member.trans (congrArg (fun child => Except.ok (child, byte :: rest)) retyped)

section Entries

variable {entry : (CJSON → Bytes → Except ParseError (CJSON × Bytes)) →
  Bytes → Except ParseError (CJSON × Bytes)}
variable {closing : UInt8}
variable {before text behind : Bytes}
variable {child : CJSON}

theorem entriesRead_last
    (isClosing : IsClosing closing)
    (blankBefore : Blank before)
    (starts : ∃ first tail, text = first :: tail ∧ Starts first)
    (read : EntryRead entry text child)
    (blankBehind : Blank behind) :
    EntriesRead entry closing (before ++ (text ++ behind)) [child] := by
  refine ⟨Nat.succ_le_succ (Nat.zero_le _), fun {depth} deep => ?_⟩
  have few : text.length ≤ depth := by
    simp only [List.length_append] at deep
    omega
  apply readsEntries_last isClosing (exists_start blankBefore isClosing starts behind)
  intro rest
  rw [List.append_assoc, List.append_assoc]
  exact read few blankBefore blankBehind isClosing.visible (delimited_closing isClosing rest)

theorem entriesRead_more
    {others : Bytes}
    {children : List CJSON}
    (isClosing : IsClosing closing)
    (blankBefore : Blank before)
    (starts : ∃ first tail, text = first :: tail ∧ Starts first)
    (read : EntryRead entry text child)
    (blankBehind : Blank behind)
    (reads : EntriesRead entry closing others children) :
    EntriesRead entry closing (before ++ (text ++ (behind ++ 0x2C :: others)))
      (child :: children) := by
  obtain ⟨fewOthers, readsOthers⟩ := reads
  constructor
  · simp only [List.length_append, List.length_cons]
    omega
  · intro depth deep
    simp only [List.length_append, List.length_cons] at deep
    have shape : before ++ (text ++ (behind ++ 0x2C :: others)) =
        before ++ (text ++ behind) ++ comma :: others := by
      simp [comma]
    rw [shape]
    apply readsEntries_more (exists_start blankBefore isClosing starts behind) ?_ fewOthers
      (readsOthers (by omega))
    intro rest
    rw [List.append_assoc, List.append_assoc]
    exact read (by omega) blankBefore blankBehind (by decide) (delimited_comma rest)

end Entries

/-- The parser makes the tree of the value that a text stands for. -/
theorem valueRead_means
    {allowed : Numerals}
    {text : Bytes}
    {value : Value}
    (means : Means allowed text value) :
    ValueRead text value :=
  @Means.rec allowed
    (fun text value _ => ValueRead text value)
    (fun text elements _ =>
      EntriesRead parseElement closeBracket text (ofElements elements))
    (fun text member _ => EntryRead parseMember text
      (ofValue { newItem with string := some (CString.ofChars member.1) } member.2))
    (fun text members _ => EntriesRead parseMember closeBrace text (ofMembers members))
    (fun _ _ _ _ => rfl) (fun _ _ _ _ => rfl) (fun _ _ _ _ => rfl)
    (fun isNumber => valueRead_number isNumber)
    (fun characters => valueRead_string characters)
    (fun blank => valueRead_emptyArray blank)
    (fun _ reads => valueRead_array reads)
    (fun blank => valueRead_emptyObject blank)
    (fun _ reads => valueRead_object reads)
    (fun blankBefore means blankBehind read => entriesRead_last (.inl rfl) blankBefore
      (Means.starts means) (entryRead_element (Means.starts means) read) blankBehind)
    (fun blankBefore means blankBehind _ read reads => entriesRead_more (.inl rfl) blankBefore
      (Means.starts means) (entryRead_element (Means.starts means) read) blankBehind reads)
    (fun characters blankGap blankStart means read =>
      entryRead_member characters blankGap blankStart (Means.starts means) read)
    (fun blankBefore isMember blankBehind read => entriesRead_last (.inr rfl) blankBefore
      (Member.starts isMember) read blankBehind)
    (fun blankBefore isMember blankBehind _ read reads => entriesRead_more (.inr rfl)
      blankBefore (Member.starts isMember) read blankBehind reads)
    text value means

/-- A text is parsed as the tree of its value, up to the terminator. -/
theorem parseWithOpts_ofValue
    {allowed : Numerals}
    {before text behind : Bytes}
    {value : Value}
    (blankBefore : Blank before)
    (means : Means allowed text value)
    (blankBehind : Blank behind)
    (rest : Bytes) :
    parseWithOpts (before ++ (text ++ (behind ++ 0 :: rest))) true =
      .ok (ofValue newItem value, 0 :: rest) := by
  obtain ⟨first, tail, isText, isStart⟩ := Means.starts means
  have started : skip (before ++ (text ++ (behind ++ 0 :: rest))) =
      .ok (text ++ (behind ++ 0 :: rest)) := by
    rw [isText]
    exact skip_blank blankBefore isStart.1 (tail ++ (behind ++ 0 :: rest))
  have delimited : Delimited (0 :: rest) := ⟨by decide, by decide, by decide, by decide⟩
  have parsed := @valueRead_means allowed text value means
    (before ++ (text ++ (behind ++ 0 :: rest))).length
    (by simp only [List.length_append]; omega) newItem _
    (delimited_blank blankBehind delimited)
  have ended : skip (behind ++ 0 :: rest) = .ok (0 :: rest) := by
    rw [skip_append (isBlank_of_blank blankBehind)]
    rfl
  rw [parseWithOpts, started, Outcome.ok_bind, parsed, Outcome.ok_bind]
  dsimp only
  rw [if_pos rfl, ended]
  rfl

theorem blank_nil : Blank [] :=
  fun _ inside => absurd inside List.not_mem_nil

/-! ## Numbers that are finite -/

/-- Numerals of which `parse_number` makes finite numbers. A `double` holds their digits,
the power of ten and the product, and an `int` the exponent. -/
def doubleNumeral : Numerals :=
  fun digits power => digits ≤ 308 ∧ -307 ≤ power ∧ digits + power ≤ 308

theorem isFinite_number
    {text : Bytes}
    {n : Rat}
    (isNumber : Number doubleNumeral text n) :
    IsFinite n :=
  calc |n| < 10 ^ (308 : Int) := isNumber.abs_lt fun _ _ isAllowed => isAllowed.2.2
    _ = (10 ^ 77) ^ 4 := by
      rw [← pow_mul]
      exact zpow_natCast 10 308
    _ < (2 ^ 256) ^ 4 := pow_lt_pow_left₀ (by norm_num) (by norm_num) (by decide)
    _ = infinity := (pow_mul 2 256 4).symm

theorem holdsFinite_means
    {text : Bytes}
    {value : Value}
    (means : Means doubleNumeral text value) :
    ∀ new, (ofValue new value).HoldsFinite := by
  refine @Means.rec doubleNumeral
    (fun _ value _ => ∀ new, (ofValue new value).HoldsFinite)
    (fun _ elements _ => ∀ child ∈ ofElements elements, child.HoldsFinite)
    (fun _ member _ => ∀ new, (ofValue new member.2).HoldsFinite)
    (fun _ members _ => ∀ child ∈ ofMembers members, child.HoldsFinite)
    ?null ?isFalse ?isTrue ?number ?string ?emptyArray ?array ?emptyObject ?object
    ?lastElement ?moreElements ?member ?lastMember ?moreMembers text value means
  case null => exact fun new => holdsFinite_of nofun nofun
  case isFalse => exact fun new => holdsFinite_of nofun nofun
  case isTrue => exact fun new => holdsFinite_of nofun nofun
  case number =>
    exact fun isNumber new => holdsFinite_of (fun _ => isFinite_number isNumber) nofun
  case string => exact fun _ new => holdsFinite_of nofun nofun
  case emptyArray => exact fun _ new => holdsFinite_of nofun fun _ => nofun
  case array => exact fun _ finite new => holdsFinite_of nofun fun _ => finite
  case emptyObject => exact fun _ new => holdsFinite_of nofun fun _ => nofun
  case object => exact fun _ finite new => holdsFinite_of nofun fun _ => finite
  case lastElement =>
    exact fun _ _ _ finite => List.forall_mem_singleton.mpr (finite newItem)
  case moreElements =>
    exact fun _ _ _ _ finite others => List.forall_mem_cons.mpr ⟨finite newItem, others⟩
  case member => exact fun _ _ _ _ finite => finite
  case lastMember =>
    exact fun _ _ _ finite => List.forall_mem_singleton.mpr (finite _)
  case moreMembers =>
    exact fun _ _ _ _ finite others => List.forall_mem_cons.mpr ⟨finite _, others⟩

/-- A text of the grammar is parsed as the tree of its value, up to the terminator, and the
numbers of the tree are finite. -/
theorem parseWithOpts_means
    {before text behind : Bytes}
    {value : Value}
    (blankBefore : Blank before)
    (means : Means doubleNumeral text value)
    (blankBehind : Blank behind)
    (rest : Bytes) :
    parseWithOpts (before ++ (text ++ (behind ++ 0 :: rest))) true =
        .ok (ofValue newItem value, 0 :: rest) ∧
      (ofValue newItem value).HoldsFinite :=
  ⟨parseWithOpts_ofValue blankBefore means blankBehind rest, holdsFinite_means means newItem⟩

/-- `[-15e1,"\u00e9"]` stands for an array of two. -/
theorem means_pair :
    Means doubleNumeral
      (ascii ['[', '-', '1', '5', 'e', '1', ',', '"', '\\', 'u', '0', '0', 'e', '9', '"', ']'])
      (.array [.number (-150), .string [Char.ofNat 0xE9]]) := by
  have whole : Whole [0x31, 0x35] :=
    .digits ⟨by decide, by decide⟩ (forall_mem_of_all (by decide))
  have exponent : Exponent [0x65, 0x31] (1 * valueOf [0x31]) :=
    .digits (.inl rfl) .none (List.cons_ne_nil _ _) (forall_mem_of_all (by decide))
  have value : (-1 : Rat) * valueOf ([0x31, 0x35] ++ []) *
      10 ^ (1 * (valueOf [0x31] : Int) - ([] : Bytes).length) = -150 := by
    have first : valueOf ([0x31, 0x35] ++ []) = 15 := rfl
    have second : valueOf [0x31] = 1 := rfl
    rw [first, second]
    norm_num
  have isNumber := @Number.parts doubleNumeral _ _ _ _ _ _ _ .minus whole .none exponent
    ⟨by decide, by decide, by decide⟩
  rw [value] at isNumber
  have digits : Hex4 [0x30, 0x30, 0x65, 0x39] (Char.ofNat 0xE9).toNat :=
    @Hex4.digits _ _ _ _ 0 0 14 9 rfl rfl rfl rfl
  exact .array (.more blank_nil (.number isNumber) blank_nil
    (.last blank_nil (.string (.unicode digits .nil)) blank_nil))

/-- Blanks around it do not matter. -/
theorem parseWithOpts_means_pair :
    parseWithOpts (ascii [' ', '[', '-', '1', '5', 'e', '1', ',', '"', '\\', 'u', '0', '0', 'e',
          '9', '"', ']'] ++ [0]) true =
        .ok (ofValue newItem (.array [.number (-150), .string [Char.ofNat 0xE9]]), [0]) ∧
      (ofValue newItem (.array [.number (-150), .string [Char.ofNat 0xE9]])).HoldsFinite :=
  @parseWithOpts_means [0x20] _ [] _
    (fun _ inside => .inl (List.mem_singleton.mp inside)) means_pair blank_nil []

end ProtobufSandbox
