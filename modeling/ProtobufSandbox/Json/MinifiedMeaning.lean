import ProtobufSandbox.Json.MinifiedParses
import ProtobufSandbox.Json.PrintMeaning

/-!
# What a minified text means

The minifier leaves of every text of the grammar a text of the grammar that stands for
the same value. It drops the blanks between the parts of the text and nothing else.
-/

namespace ProtobufSandbox

open JsonText CJSON

/-- A text without zero bytes of which the minifier keeps a part, outside of strings. -/
structure Kept (text out : Bytes) : Prop where
  present : (0 : UInt8) ∉ text
  leads : Leads .outside text out .outside

theorem Kept.append
    {first second firstOut secondOut : Bytes}
    (firstKept : Kept first firstOut)
    (secondKept : Kept second secondOut) :
    Kept (first ++ second) (firstOut ++ secondOut) where
  present := List.not_mem_append firstKept.present secondKept.present
  leads := firstKept.leads.append secondKept.leads

theorem kept_plain
    {text : Bytes}
    (plain : ∀ byte ∈ text, Plain byte ∧ byte ≠ 0) :
    Kept text text where
  present inside := (plain 0 inside).2 rfl
  leads := leads_plain fun byte inside => (plain byte inside).1

theorem kept_byte
    {byte : UInt8}
    (plain : Plain byte ∧ byte ≠ 0) :
    Kept [byte] [byte] :=
  kept_plain (by simpa using plain)

theorem kept_blank
    {blanks : Bytes}
    (blank : Blank blanks) :
    Kept blanks [] where
  present inside := by
    rcases blank 0 inside with same | same | same | same <;> exact absurd same (by decide)
  leads := leads_dropped fun byte inside => by
    rcases blank byte inside with rfl | rfl | rfl | rfl <;> decide

/-! ## Strings -/

/-- A text without zero bytes that the minifier copies inside a string. -/
def Copied (text : Bytes) : Prop :=
  (0 : UInt8) ∉ text ∧ Leads .string text text .string

theorem Copied.append
    {left right : Bytes}
    (leftCopied : Copied left)
    (rightCopied : Copied right) :
    Copied (left ++ right) :=
  ⟨List.not_mem_append leftCopied.1 rightCopied.1, leftCopied.2.append rightCopied.2⟩

theorem copied_unescaped
    {text : Bytes}
    (unescaped : ∀ byte ∈ text, Unescaped byte ∧ byte ≠ 0) :
    Copied text :=
  ⟨fun inside => (unescaped 0 inside).2 rfl,
    leads_unescaped fun byte inside => (unescaped byte inside).1⟩

theorem copied_escaped
    {byte : UInt8}
    (nonzero : byte ≠ 0) :
    Copied [backslash, byte] :=
  ⟨by simpa [backslash] using nonzero.symm, leads_escaped byte⟩

/-- What stands between the quotes of a string is copied. -/
theorem copied_characters
    {text : Bytes}
    {chars : List Char}
    (characters : JsonText.Characters text chars) :
    Copied text := by
  induction characters with
  | nil => exact ⟨List.not_mem_nil, leads_nil .string⟩
  | @plain c text chars visible notQuote notBackslash others inductionHypothesis =>
      refine (copied_unescaped fun byte inside => ?_).append inductionHypothesis
      have plain := plain_utf8EncodeChar visible notQuote notBackslash byte inside
      exact ⟨plain.2, plain.ne_zero⟩
  | @escape letter c text chars isLetter others inductionHypothesis =>
      have nonzero : letter ≠ 0 := by
        rintro rfl
        cases isLetter
      exact (copied_escaped nonzero).append inductionHypothesis
  | @unicode digits c text chars isNumber others inductionHypothesis =>
      exact (copied_escaped (by decide)).append
        ((copied_unescaped (Hex4.plain isNumber)).append inductionHypothesis)
  | @pair first second high low c text chars isHigh isLow highRange lowRange isPair others
      inductionHypothesis =>
      exact (copied_escaped (by decide)).append ((copied_unescaped (Hex4.plain isHigh)).append
        ((copied_escaped (by decide)).append
          ((copied_unescaped (Hex4.plain isLow)).append inductionHypothesis)))

theorem kept_string
    {text : Bytes}
    {chars : List Char}
    (characters : JsonText.Characters text chars) :
    Kept (quote :: (text ++ [quote])) (quote :: (text ++ [quote])) where
  present := by
    have copied := copied_characters characters
    simpa [quote] using copied.1
  leads := leads_opening.append ((copied_characters characters).2.append leads_closing)

/-! ## Numbers -/

theorem isNumeral_number
    {allowed : Numerals}
    {text : Bytes}
    {n : Rat}
    (isNumber : Number allowed text n) :
    ∀ byte ∈ text, IsNumeral byte := by
  have ofDigits {digits : Bytes} (areDigits : Digits digits) : ∀ byte ∈ digits, IsNumeral byte :=
    fun byte inside => .inl (areDigits byte inside)
  cases isNumber with
  | @parts sign whole fraction digits exponent factor power isSign isWhole isFraction
      isExponent _ =>
      have signNumeral : ∀ byte ∈ sign, IsNumeral byte := by
        cases isSign <;> exact forall_mem_of_all (by decide)
      have wholeNumeral : ∀ byte ∈ whole, IsNumeral byte := by
        cases isWhole with
        | zero => exact forall_mem_of_all (by decide)
        | digits positive others =>
            exact List.forall_mem_cons.mpr ⟨.inl (isDigit_of_le _ positive), ofDigits others⟩
      have fractionNumeral : ∀ byte ∈ fraction, IsNumeral byte := by
        cases isFraction with
        | none => exact forall_mem_of_all (by decide)
        | digits some areDigits =>
            exact List.forall_mem_cons.mpr ⟨by decide, ofDigits areDigits⟩
      have exponentNumeral : ∀ byte ∈ exponent, IsNumeral byte := by
        cases isExponent with
        | none => exact forall_mem_of_all (by decide)
        | digits isLetter isSign some areDigits =>
            refine List.forall_mem_cons.mpr ⟨?_, List.forall_mem_append.mpr
              ⟨?_, ofDigits areDigits⟩⟩
            · rcases isLetter with rfl | rfl <;> decide
            · cases isSign <;> exact forall_mem_of_all (by decide)
      simp only [List.forall_mem_append]
      exact ⟨signNumeral, wholeNumeral, fractionNumeral, exponentNumeral⟩

theorem isNumeral_nonzero : ∀ byte : UInt8, IsNumeral byte → byte ≠ 0 :=
  forall_byte (by decide)

/-! ## Values -/

/-- The minifier keeps a text with some property. -/
def KeepsSome (property : Bytes → Prop) (text : Bytes) : Prop :=
  ∃ out, Kept text out ∧ property out

/-- A text between two brackets. -/
theorem keepsSome_bracketed
    {property inner : Bytes → Prop}
    {opening closing : UInt8}
    {text : Bytes}
    (plainOpening : Plain opening ∧ opening ≠ 0)
    (plainClosing : Plain closing ∧ closing ≠ 0)
    (kept : KeepsSome inner text)
    (bracketed : ∀ out, inner out → property (opening :: (out ++ [closing]))) :
    KeepsSome property (opening :: (text ++ [closing])) := by
  obtain ⟨out, kept, isInner⟩ := kept
  exact ⟨_, (kept_byte plainOpening).append (kept.append (kept_byte plainClosing)),
    bracketed out isInner⟩

/-- The last of some entries. -/
theorem keepsSome_last
    {property entry : Bytes → Prop}
    {before text behind : Bytes}
    (blankBefore : Blank before)
    (kept : KeepsSome entry text)
    (blankBehind : Blank behind)
    (alone : ∀ out, entry out → property ([] ++ (out ++ []))) :
    KeepsSome property (before ++ (text ++ behind)) := by
  obtain ⟨out, kept, isEntry⟩ := kept
  exact ⟨_, (kept_blank blankBefore).append (kept.append (kept_blank blankBehind)),
    alone out isEntry⟩

/-- An entry in front of others. -/
theorem keepsSome_more
    {property entry others : Bytes → Prop}
    {before text behind rest : Bytes}
    (blankBefore : Blank before)
    (kept : KeepsSome entry text)
    (blankBehind : Blank behind)
    (keptOthers : KeepsSome others rest)
    (joined : ∀ out left, entry out → others left →
      property ([] ++ (out ++ ([] ++ comma :: left)))) :
    KeepsSome property (before ++ (text ++ (behind ++ comma :: rest))) := by
  obtain ⟨out, kept, isEntry⟩ := kept
  obtain ⟨left, keptLeft, areOthers⟩ := keptOthers
  have separated := (kept_byte (by decide : Plain comma ∧ comma ≠ 0)).append keptLeft
  exact ⟨_, (kept_blank blankBefore).append
    (kept.append ((kept_blank blankBehind).append separated)), joined out left isEntry areOthers⟩

/-- A name, and what it names. -/
theorem keepsSome_member
    {allowed : Numerals}
    {name gap start text : Bytes}
    {chars : List Char}
    {value : Value}
    (characters : JsonText.Characters name chars)
    (blankGap : Blank gap)
    (blankStart : Blank start)
    (kept : KeepsSome (Means allowed · value) text) :
    KeepsSome (Member allowed · (chars, value))
      (0x22 :: (name ++ 0x22 :: (gap ++ 0x3A :: (start ++ text)))) := by
  obtain ⟨out, kept, means⟩ := kept
  have valued := (kept_byte (by decide : Plain colon ∧ colon ≠ 0)).append
    ((kept_blank blankStart).append kept)
  have named := (kept_string characters).append ((kept_blank blankGap).append valued)
  have isMember := Member.named characters blank_nil blank_nil means
  simp only [List.cons_append, List.append_assoc, List.nil_append] at named isMember
  exact ⟨_, named, isMember⟩

/-- Of a text of the grammar the minifier keeps one that stands for the same value. -/
theorem keepsSome_means
    {allowed : Numerals}
    {text : Bytes}
    {value : Value}
    (means : Means allowed text value) :
    KeepsSome (Means allowed · value) text := by
  refine @Means.rec allowed
    (fun text value _ => KeepsSome (Means allowed · value) text)
    (fun text elements _ => KeepsSome (Elements allowed · elements) text)
    (fun text member _ => KeepsSome (Member allowed · member) text)
    (fun text members _ => KeepsSome (Members allowed · members) text)
    ?null ?isFalse ?isTrue ?number ?string ?emptyArray ?array ?emptyObject ?object
    ?lastElement ?moreElements ?member ?lastMember ?moreMembers text value means
  case null => exact ⟨_, kept_plain (forall_mem_of_all (by decide)), .null⟩
  case isFalse => exact ⟨_, kept_plain (forall_mem_of_all (by decide)), .isFalse⟩
  case isTrue => exact ⟨_, kept_plain (forall_mem_of_all (by decide)), .isTrue⟩
  case number =>
    intro text n isNumber
    have numerals := isNumeral_number isNumber
    exact ⟨text, kept_plain fun byte inside =>
      ⟨isNumeral_plain byte (numerals byte inside),
        isNumeral_nonzero byte (numerals byte inside)⟩, .number isNumber⟩
  case string =>
    intro text chars characters
    exact ⟨_, kept_string characters, .string characters⟩
  case emptyArray =>
    intro blanks blank
    exact keepsSome_bracketed (by decide) (by decide) ⟨[], kept_blank blank, blank_nil⟩
      fun _ => .emptyArray
  case array =>
    intro text elements _ kept
    exact keepsSome_bracketed (by decide) (by decide) kept fun _ => .array
  case emptyObject =>
    intro blanks blank
    exact keepsSome_bracketed (by decide) (by decide) ⟨[], kept_blank blank, blank_nil⟩
      fun _ => .emptyObject
  case object =>
    intro text members _ kept
    exact keepsSome_bracketed (by decide) (by decide) kept fun _ => .object
  case lastElement =>
    intro before text behind element blankBefore _ blankBehind kept
    exact keepsSome_last blankBefore kept blankBehind fun _ means =>
      .last blank_nil means blank_nil
  case moreElements =>
    intro before text behind others element elements blankBefore _ blankBehind _ kept keptOthers
    exact keepsSome_more blankBefore kept blankBehind keptOthers fun _ _ means areElements =>
      .more blank_nil means blank_nil areElements
  case member =>
    intro name gap start text chars value characters blankGap blankStart _ kept
    exact keepsSome_member characters blankGap blankStart kept
  case lastMember =>
    intro before text behind member blankBefore _ blankBehind kept
    exact keepsSome_last blankBefore kept blankBehind fun _ isMember =>
      .last blank_nil isMember blank_nil
  case moreMembers =>
    intro before text behind others member members blankBefore _ blankBehind _ kept keptOthers
    exact keepsSome_more blankBefore kept blankBehind keptOthers fun _ _ isMember areMembers =>
      .more blank_nil isMember blank_nil areMembers

/-- `cJSON_Minify` makes of a text of the grammar, in its own block, one without the
blanks around it that stands for the same value. -/
theorem minifyIn_means
    {allowed : Numerals}
    {before text behind : Bytes}
    {value : Value}
    (blankBefore : Blank before)
    (means : Means allowed text value)
    (blankBehind : Blank behind)
    (slack : Bytes) :
    ∃ out stale, Means allowed out value ∧
      out.length + stale.length = (before ++ (text ++ behind)).length ∧
      minifyIn (before ++ (text ++ (behind ++ 0 :: slack))) =
        .ok (out ++ 0 :: (stale ++ slack)) := by
  obtain ⟨out, kept, same⟩ := keepsSome_means means
  have whole := (kept_blank blankBefore).append (kept.append (kept_blank blankBehind))
  have isMinified : minified (before ++ (text ++ behind)) = some out := by
    have leads := whole.leads []
    rw [List.append_nil, List.append_nil, List.nil_append] at leads
    rw [minified, leads]
    simp [minifiedFrom]
  rcases minifyIn_run ⟨before ++ (text ++ behind), whole.present⟩ slack with
    ⟨result, stale, isResult, -, lengths, ran⟩ | ⟨ends, -⟩
  · obtain rfl : result = out := Option.some.inj (isResult.symm.trans isMinified)
    refine ⟨result, stale, same, lengths, ?_⟩
    simpa only [List.append_assoc] using ran
  · rw [isMinified] at ends
    cases ends

/-- Without the blank in front of it, an array stands for the same. -/
theorem minifyIn_means_pair :
    ∃ out stale, Means doubleNumeral out (.array [.number (-150), .string [Char.ofNat 0xE9]]) ∧
      out.length + stale.length = 17 ∧
      minifyIn (ascii [' ', '[', '-', '1', '5', 'e', '1', ',', '"', '\\', 'u', '0', '0', 'e',
        '9', '"', ']'] ++ [0]) = .ok (out ++ 0 :: (stale ++ [])) :=
  @minifyIn_means doubleNumeral [0x20] _ [] _
    (fun _ inside => .inl (List.mem_singleton.mp inside)) means_pair blank_nil []

end ProtobufSandbox
