import ProtobufSandbox.Json.LocalReads
import ProtobufSandbox.Json.Remainder
import ProtobufSandbox.Json.RoundTrip
import ProtobufSandbox.Json.TextGrammar

/-!
# Minified texts in the parser

A text that the parser takes up to its end is parsed to the same tree when it is
minified, if it does not end inside a string and every escape of four digits in its
strings is complete. Each part of the parser takes the same from a text and from what
is kept of it.
-/

namespace ProtobufSandbox

open CJSON (peek skip startsWith parseNumber parseString parseValue)

/-! ## Parts of a text -/

/-- A part of a text outside of strings, of which this is kept. -/
structure Passed (text out : Bytes) : Prop where
  leads : Leads .outside text out .outside
  complete : ∀ rest, EscapesComplete .outside (text ++ rest) → EscapesComplete .outside rest

theorem Passed.append
    {first second firstOut secondOut : Bytes}
    (firstPassed : Passed first firstOut)
    (secondPassed : Passed second secondOut) :
    Passed (first ++ second) (firstOut ++ secondOut) where
  leads := firstPassed.leads.append secondPassed.leads
  complete rest complete := by
    rw [List.append_assoc] at complete
    exact secondPassed.complete rest (firstPassed.complete _ complete)

theorem escapesComplete_outside
    {text rest : Bytes}
    (noString : ∀ byte ∈ text, byte ≠ quote)
    (complete : EscapesComplete .outside (text ++ rest)) :
    EscapesComplete .outside rest := by
  induction text with
  | nil => exact complete
  | cons byte text inductionHypothesis =>
      obtain ⟨first, others⟩ := List.forall_mem_cons.mp noString
      rw [List.cons_append, EscapesComplete, if_neg first] at complete
      exact inductionHypothesis others complete

theorem passed_plain
    {text : Bytes}
    (plain : ∀ byte ∈ text, Plain byte) :
    Passed text text where
  leads := leads_plain plain
  complete _ := escapesComplete_outside fun byte present => (plain byte present).2.2

/-- Of blanks only blanks are kept. -/
theorem exists_passed_blank
    {blanks : Bytes}
    (blank : CJSON.IsBlank blanks) :
    ∃ out, Passed blanks out ∧ CJSON.IsBlank out := by
  have checked : ∀ byte : UInt8, byte ≠ 0 ∧ byte ≤ 32 → byte ≠ slash ∧ byte ≠ quote :=
    forall_byte (by decide)
  induction blanks with
  | nil => exact ⟨[], passed_plain (by simp), blank⟩
  | cons byte blanks inductionHypothesis =>
      obtain ⟨isBlank, others⟩ := List.forall_mem_cons.mp blank
      obtain ⟨out, passed, outBlank⟩ := inductionHypothesis others
      by_cases dropped : IsDropped byte
      · have first : Passed [byte] [] :=
          ⟨leads_dropped (by simpa using dropped), fun _ =>
            escapesComplete_outside (by simpa using (checked byte isBlank).2)⟩
        exact ⟨out, first.append passed, outBlank⟩
      · have first : Passed [byte] [byte] :=
          passed_plain (by simpa using ⟨dropped, checked byte isBlank⟩)
        exact ⟨byte :: out, first.append passed,
          List.forall_mem_cons.mpr ⟨isBlank, outBlank⟩⟩

theorem passed_literal
    {chars : Bytes}
    (isChars : Characters chars) :
    Passed (quote :: (chars ++ [quote])) (quote :: (chars ++ [quote])) where
  leads := leads_opening.append (isChars.leads.append leads_closing)
  complete rest complete := by
    have inside : EscapesComplete .string (chars ++ (quote :: rest)) := by
      rw [List.cons_append, List.append_assoc, EscapesComplete, if_pos rfl] at complete
      exact complete
    exact isChars.complete inside

/-- What is left of a text in its block: it ends outside of strings, and its escapes
are complete. -/
def Ready (text : Bytes) : Prop :=
  ∃ visible, text = visible ++ [0] ∧ (0 : UInt8) ∉ visible ∧ minified visible ≠ none ∧
    EscapesComplete .outside visible

theorem Ready.behind
    {text out rest : Bytes}
    (ready : Ready (text ++ rest))
    (passed : Passed text out)
    (present : rest ≠ []) :
    Ready rest := by
  obtain ⟨visible, same, nonzero, closed, complete⟩ := ready
  obtain ⟨behind, last, rfl⟩ := (List.eq_nil_or_concat' rest).resolve_left present
  rw [← List.append_assoc] at same
  obtain ⟨rfl, lastZero⟩ := List.append_inj' same rfl
  exact ⟨behind, by rw [lastZero], fun inside => nonzero (List.mem_append_right _ inside),
    passed.leads.ne_none closed, passed.complete _ complete⟩

/-- A text that begins with a byte is left with what is behind it. -/
theorem Ready.of_cons
    {byte : UInt8}
    {rest : Bytes}
    (ready : Ready (byte :: rest))
    (plain : Plain byte)
    (nonzero : byte ≠ 0) :
    Ready rest := by
  refine @Ready.behind [byte] _ _ ready (passed_plain (by simpa using plain)) ?_
  rintro rfl
  obtain ⟨visible, same, -⟩ := ready
  rw [← List.nil_append [byte]] at same
  exact nonzero (List.cons.inj (List.append_inj' same rfl).2).1

/-- The longest numeral behind a byte of one. -/
theorem Ready.exists_numeral
    {byte : UInt8}
    {value : Bytes}
    (ready : Ready (byte :: value))
    (numeral : IsNumeral byte) :
    ∃ run behind, value = run ++ behind ∧ (∀ byte ∈ run, IsNumeral byte) ∧
      NumberEnds behind := by
  induction value generalizing byte with
  | nil =>
      obtain ⟨visible, same, -⟩ := ready
      rw [← List.nil_append [byte]] at same
      rw [(List.cons.inj (List.append_inj' same rfl).2).1] at numeral
      exact absurd numeral (by decide)
  | cons next value inductionHypothesis =>
      by_cases continues : IsNumeral next
      · have nonzero : byte ≠ 0 := by
          rintro rfl
          exact absurd numeral (by decide)
        obtain ⟨run, behind, rfl, numerals, ends⟩ :=
          inductionHypothesis (ready.of_cons (isNumeral_plain byte numeral) nonzero) continues
        exact ⟨next :: run, behind, rfl, List.forall_mem_cons.mpr ⟨continues, numerals⟩, ends⟩
      · exact ⟨[], next :: value, rfl, by simp, next, value, rfl, continues⟩

/-- The text in front of which `skip` stops. -/
theorem exists_of_skip
    {value rest : Bytes}
    (skipped : skip value = .ok rest) :
    ∃ blanks, value = blanks ++ rest ∧ CJSON.IsBlank blanks ∧
      ∃ byte tail, rest = byte :: tail ∧ ¬ (byte ≠ 0 ∧ byte ≤ 32) := by
  induction value with
  | nil => cases skipped
  | cons byte value inductionHypothesis =>
      rw [skip] at skipped
      split at skipped
      · next blank =>
          obtain ⟨blanks, rfl, isBlank, stops⟩ := inductionHypothesis skipped
          exact ⟨byte :: blanks, rfl, List.forall_mem_cons.mpr ⟨blank, isBlank⟩, stops⟩
      · next visible =>
          cases skipped
          exact ⟨[], rfl, CJSON.isBlank_nil, byte, value, rfl, visible⟩

/-- A string at the front of a text. -/
theorem exists_literal
    {body : Bytes}
    (ready : Ready (quote :: body)) :
    ∃ chars rest, body = chars ++ quote :: rest ∧ Characters chars := by
  obtain ⟨visible, same, nonzero, closed, complete⟩ := ready
  cases visible with
  | nil => cases same
  | cons byte visible =>
      obtain ⟨rfl, rfl⟩ := List.cons.inj same
      have inside : minifiedFrom .string visible ≠ none :=
        @Leads.ne_none _ _ _ _ visible leads_opening closed
      rw [EscapesComplete, if_pos rfl] at complete
      obtain ⟨chars, rest, rfl, isChars⟩ := exists_characters
        (fun found => nonzero (List.mem_cons_of_mem _ found)) inside complete
      refine ⟨chars, rest ++ [0], ?_, isChars⟩
      change (chars ++ quote :: rest) ++ [0] = _
      rw [List.append_assoc, List.cons_append]

/-! ## What the parser takes -/

/-- A visible byte that does not continue a number. -/
def Stops (rest : Bytes) : Prop :=
  ∃ byte tail, rest = byte :: tail ∧ ¬ (byte ≠ 0 ∧ byte ≤ 32) ∧ ¬ IsNumeral byte

theorem Stops.skip
    {blanks rest : Bytes}
    (stops : Stops rest)
    (blank : CJSON.IsBlank blanks) :
    skip (blanks ++ rest) = .ok rest := by
  obtain ⟨byte, tail, rfl, visible, -⟩ := stops
  rw [CJSON.skip_append blank, CJSON.skip, if_neg visible]

theorem Stops.numberEnds
    {blanks rest : Bytes}
    (stops : Stops rest)
    (blank : CJSON.IsBlank blanks) :
    NumberEnds (blanks ++ rest) := by
  have checked : ∀ byte : UInt8, byte ≠ 0 ∧ byte ≤ 32 → ¬ IsNumeral byte :=
    forall_byte (by decide)
  cases blanks with
  | nil =>
      obtain ⟨byte, tail, rfl, -, ends⟩ := stops
      exact ⟨byte, tail, rfl, ends⟩
  | cons byte blanks =>
      exact ⟨byte, blanks ++ rest, rfl, checked byte (blank byte List.mem_cons_self)⟩

/-- What a part of the parser takes of a text, it takes of what is kept of that, if a
text of a kind is behind it and the bound on its recursion is above the length. -/
def Alike
    (follows : Bytes → Prop)
    (reads : Nat → Bytes → Except ParseError (α × Bytes))
    (value : Bytes)
    (result : α × Bytes) : Prop :=
  ∃ text out, value = text ++ result.2 ∧ Passed text out ∧ CJSON.Visible out ∧
    ∀ limit rest, out.length < limit → follows rest →
      reads limit (out ++ rest) = .ok (result.1, rest)

/-- Every part of a text that a reader of values takes, readers of values take of what
is kept of it. -/
def ValueAlike (parse : CJSON → Bytes → Except ParseError (CJSON × Bytes)) : Prop :=
  ∀ item value result, Ready value → parse item value = .ok result → NumberEnds result.2 →
    Alike NumberEnds (fun limit => parseValue limit item) value result

/-- A text that begins with a visible byte that closes no container. -/
def Opens (closing : UInt8) (text : Bytes) : Prop :=
  ∃ byte tail, text = byte :: tail ∧ 32 < byte ∧ byte ≠ closing

theorem Opens.skip
    {closing : UInt8}
    {blanks text : Bytes}
    (opens : Opens closing text)
    (blank : CJSON.IsBlank blanks)
    (rest : Bytes) :
    skip (blanks ++ (text ++ rest)) = .ok (text ++ rest) := by
  obtain ⟨byte, tail, rfl, visible, -⟩ := opens
  rw [CJSON.skip_append blank, List.cons_append, CJSON.skip_of_lt visible]

/-- The same of the entries of a container: what is kept of one is taken behind any
blanks. -/
def EntryAlike
    (closing : UInt8)
    (entry : Bytes → Except ParseError (CJSON × Bytes))
    (entries : Nat → Bytes → Except ParseError (CJSON × Bytes)) : Prop :=
  ∀ {value child rest}, Ready value → entry value = .ok (child, rest) → Stops rest →
    ∃ text blanks out, value = text ++ rest ∧ Passed text (blanks ++ out) ∧
      CJSON.IsBlank blanks ∧ Opens closing out ∧
      ∀ {blanks limit rest}, CJSON.IsBlank blanks → out.length < limit → Stops rest →
        entries limit (blanks ++ (out ++ rest)) = .ok (child, rest)

/-- A value between blanks. -/
theorem ValueAlike.between
    {parse : CJSON → Bytes → Except ParseError (CJSON × Bytes)}
    (alike : ValueAlike parse)
    {item child : CJSON}
    {value start behind following : Bytes}
    (ready : Ready value)
    (skipped : skip value = .ok start)
    (parsed : parse item start = .ok (child, behind))
    (skippedBehind : skip behind = .ok following)
    (stops : Stops following) :
    ∃ text blanks out, value = text ++ following ∧ Passed text (blanks ++ out) ∧
      CJSON.IsBlank blanks ∧ Opens closeBracket out ∧
      ∀ {blanks limit rest}, CJSON.IsBlank blanks → out.length < limit → Stops rest →
        ∃ behind, skip (blanks ++ (out ++ rest)) = .ok (out ++ rest) ∧
          parseValue limit item (out ++ rest) = .ok (child, behind) ∧
          skip behind = .ok rest := by
  obtain ⟨blanks, rfl, blank, byte, tail, rfl, visible⟩ := exists_of_skip skipped
  obtain ⟨blanksBehind, rfl, blankBehind, -⟩ := exists_of_skip skippedBehind
  obtain ⟨outBlanks, passed, outBlank⟩ := exists_passed_blank blank
  obtain ⟨outBehind, passedBehind, outBlankBehind⟩ := exists_passed_blank blankBehind
  obtain ⟨text, out, isText, textPassed, ⟨first, others, rfl, opens⟩, reads⟩ :=
    alike item _ _ (ready.behind passed (List.cons_ne_nil byte tail)) parsed
      (stops.numberEnds blankBehind)
  have starts : Opens closeBracket (first :: others ++ outBehind) := ⟨first, _, rfl, opens⟩
  refine ⟨blanks ++ (text ++ blanksBehind), outBlanks, first :: others ++ outBehind, ?_,
    passed.append (textPassed.append passedBehind), outBlank, starts, ?_⟩
  · rw [isText]
    simp only [List.append_assoc]
  · intro blanks limit rest blank enough stops
    rw [List.length_append] at enough
    refine ⟨outBehind ++ rest, starts.skip blank rest, ?_, stops.skip outBlankBehind⟩
    rw [List.append_assoc]
    exact reads _ _ (by omega) (stops.numberEnds outBlankBehind)

theorem ValueAlike.element
    {parse : CJSON → Bytes → Except ParseError (CJSON × Bytes)}
    (alike : ValueAlike parse) :
    EntryAlike closeBracket (CJSON.parseElement parse)
      (fun limit => CJSON.parseElement (parseValue limit)) := by
  intro value child rest ready parsed stops
  obtain ⟨start, skipped, parsed⟩ := Outcome.bind_eq_ok_iff.mp parsed
  obtain ⟨⟨item, behind⟩, taken, parsed⟩ := Outcome.bind_eq_ok_iff.mp parsed
  obtain ⟨following, skippedBehind, parsed⟩ := Outcome.bind_eq_ok_iff.mp parsed
  cases parsed
  obtain ⟨text, blanks, out, same, passed, blank, opens, reads⟩ :=
    alike.between ready skipped taken skippedBehind stops
  refine ⟨text, blanks, out, same, passed, blank, opens, fun blank enough stops => ?_⟩
  obtain ⟨behind, skips, parses, skipsBehind⟩ := reads blank enough stops
  simp only [CJSON.parseElement, skips, Outcome.ok_bind, parses, skipsBehind]
  rfl

/-- A string that is parsed has quotes around its characters. -/
theorem exists_of_parseString
    {item : CJSON}
    {value : Bytes}
    {result : CJSON × Bytes}
    (ready : Ready value)
    (parsed : parseString item value = .ok result) :
    ∃ chars text, value = quote :: (chars ++ quote :: result.2) ∧ Characters chars ∧
      result.1 = { item with valuestring := some text, type := .string } ∧
      ∀ item rest, parseString item (quote :: (chars ++ quote :: rest)) =
        .ok ({ item with valuestring := some text, type := .string }, rest) := by
  obtain ⟨byte, peeked, opened⟩ := Outcome.bind_eq_ok_iff.mp parsed
  obtain ⟨body, rfl⟩ := (CJSON.peek_returns value).of_eq_ok peeked
  by_cases opens : byte = quote
  · subst opens
    obtain ⟨chars, rest, rfl, isChars⟩ := exists_literal ready
    obtain ⟨outcome, parses⟩ := isChars.parseString
    rw [parses] at parsed
    obtain ⟨text, rfl, rfl⟩ := Outcome.map_eq_ok_iff.mp parsed
    exact ⟨chars, text, rfl, isChars, rfl, fun item rest => parses item rest⟩
  · rw [if_pos opens] at opened
    cases opened

theorem ValueAlike.member
    {parse : CJSON → Bytes → Except ParseError (CJSON × Bytes)}
    (alike : ValueAlike parse) :
    EntryAlike closeBrace (CJSON.parseMember parse)
      (fun limit => CJSON.parseMember (parseValue limit)) := by
  intro value result rest ready parsed stops
  obtain ⟨start, skipped, parsed⟩ := Outcome.bind_eq_ok_iff.mp parsed
  obtain ⟨⟨item, afterName⟩, named, parsed⟩ := Outcome.bind_eq_ok_iff.mp parsed
  obtain ⟨separator, skippedName, parsed⟩ := Outcome.bind_eq_ok_iff.mp parsed
  obtain ⟨byte, peeked, parsed⟩ := Outcome.bind_eq_ok_iff.mp parsed
  obtain ⟨content, rfl⟩ := (CJSON.peek_returns separator).of_eq_ok peeked
  by_cases separates : byte = colon
  · subst separates
    obtain ⟨first, skippedContent, parsed⟩ := Outcome.bind_eq_ok_iff.mp parsed
    obtain ⟨⟨child, behind⟩, taken, parsed⟩ := Outcome.bind_eq_ok_iff.mp parsed
    obtain ⟨following, skippedBehind, parsed⟩ := Outcome.bind_eq_ok_iff.mp parsed
    cases parsed
    obtain ⟨blanks, rfl, blank, head, tail, rfl, -⟩ := exists_of_skip skipped
    obtain ⟨outBlanks, passed, outBlank⟩ := exists_passed_blank blank
    have startReady := ready.behind passed (List.cons_ne_nil head tail)
    obtain ⟨chars, name, same, isChars, isItem, parsesName⟩ :=
      exists_of_parseString startReady named
    obtain ⟨blanksName, sameName, blankName, -⟩ := exists_of_skip skippedName
    obtain ⟨outName, passedName, outBlankName⟩ := exists_passed_blank blankName
    have literal : head :: tail =
        (quote :: (chars ++ [quote])) ++ (blanksName ++ ([colon] ++ content)) := by
      rw [same, sameName]
      simp
    rw [literal] at startReady
    have nameReady := startReady.behind (passed_literal isChars) (by simp)
    have separatorReady : Ready (colon :: content) :=
      nameReady.behind passedName (List.cons_ne_nil colon content)
    have contentReady := separatorReady.of_cons (by decide) (by decide)
    obtain ⟨text, blanksContent, out, isText, textPassed, blankContent, opens, reads⟩ :=
      alike.between contentReady skippedContent taken skippedBehind stops
    have colonPassed : Passed [colon] [colon] := passed_plain (forall_mem_of_all (by decide))
    refine ⟨blanks ++ ((quote :: (chars ++ [quote])) ++ (blanksName ++ ([colon] ++ text))),
      outBlanks,
      (quote :: (chars ++ [quote])) ++ (outName ++ ([colon] ++ (blanksContent ++ out))), ?_,
      passed.append ((passed_literal isChars).append
        (passedName.append (colonPassed.append textPassed))), outBlank,
      ⟨quote, _, rfl, by decide, by decide⟩, ?_⟩
    · rw [literal, isText]
      simp only [List.append_assoc]
    · intro blanks limit rest blank enough stops
      simp only [List.length_append] at enough
      obtain ⟨behind, skips, parses, skipsBehind⟩ := @reads blanksContent limit rest blankContent (by omega) stops
      have opening (text : Bytes) : skip (quote :: text) = .ok (quote :: text) :=
        CJSON.skip_of_lt (by decide) text
      have nameSkips (text : Bytes) : skip (outName ++ (colon :: text)) = .ok (colon :: text) :=
        (CJSON.skip_append outBlankName _).trans (CJSON.skip_of_lt (by decide) text)
      have whole : (quote :: (chars ++ [quote])) ++
          (outName ++ ([colon] ++ (blanksContent ++ out))) ++ rest =
          quote :: (chars ++ quote ::
            (outName ++ (colon :: (blanksContent ++ (out ++ rest))))) := by
        simp
      dsimp only at isItem
      subst isItem
      change CJSON.parseMember (parseValue limit) _ = _
      rw [whole, CJSON.parseMember, CJSON.skip_append blank, opening, Outcome.ok_bind,
        parsesName, Outcome.ok_bind]
      dsimp only
      rw [nameSkips, Outcome.ok_bind, CJSON.peek_cons, Outcome.ok_bind, if_neg (by decide),
        List.drop_succ_cons, List.drop_zero, skips, Outcome.ok_bind, parses, Outcome.ok_bind,
        skipsBehind]
      rfl
  · rw [if_pos separates] at parsed
    cases parsed

section Containers

variable {closing : UInt8}
variable {entry : Bytes → Except ParseError (CJSON × Bytes)}
variable {entries : Nat → Bytes → Except ParseError (CJSON × Bytes)}

/-- The closing brackets. -/
theorem stops_closing
    (isClosing : CJSON.IsClosing closing)
    (rest : Bytes) :
    Stops (closing :: rest) := by
  rcases isClosing with rfl | rfl <;> exact ⟨_, rest, rfl, by decide, by decide⟩

/-- Behind an entry is a comma or what closes the container. -/
theorem stops_of_parseEntries
    (isClosing : CJSON.IsClosing closing)
    {turns : Nat}
    {value rest : Bytes}
    {children : List CJSON}
    (parsed : CJSON.parseEntries entry turns value = .ok (children, closing :: rest)) :
    Stops value := by
  cases turns with
  | zero => cases parsed
  | succ turns =>
      obtain ⟨byte, peeked, parsed⟩ := Outcome.bind_eq_ok_iff.mp parsed
      obtain ⟨tail, rfl⟩ := (CJSON.peek_returns value).of_eq_ok peeked
      by_cases separates : byte = comma
      · exact ⟨byte, tail, rfl, by rw [separates]; decide, by rw [separates]; decide⟩
      · rw [if_pos separates] at parsed
        cases parsed
        exact stops_closing isClosing rest

/-- The entries behind the first one. -/
theorem EntryAlike.parseEntries
    (alike : EntryAlike closing entry entries)
    (isClosing : CJSON.IsClosing closing)
    {turns : Nat}
    {value rest : Bytes}
    {children : List CJSON}
    (ready : Ready value)
    (parsed : CJSON.parseEntries entry turns value = .ok (children, closing :: rest)) :
    ∃ text out, value = text ++ closing :: rest ∧ Passed text out ∧
      children.length ≤ out.length ∧
      ∀ {limit turns rest}, out.length < limit → children.length < turns →
        CJSON.parseEntries (entries limit) turns (out ++ closing :: rest) =
          .ok (children, closing :: rest) := by
  induction turns generalizing value children with
  | zero => cases parsed
  | succ turns inductionHypothesis =>
      obtain ⟨byte, peeked, parsed⟩ := Outcome.bind_eq_ok_iff.mp parsed
      obtain ⟨body, rfl⟩ := (CJSON.peek_returns value).of_eq_ok peeked
      by_cases separates : byte = comma
      · subst separates
        obtain ⟨⟨child, after⟩, taken, parsed⟩ := Outcome.bind_eq_ok_iff.mp parsed
        obtain ⟨⟨others, ending⟩, more, parsed⟩ := Outcome.bind_eq_ok_iff.mp parsed
        cases parsed
        have stops := stops_of_parseEntries isClosing more
        have bodyReady := ready.of_cons (by decide) (by decide)
        obtain ⟨text, blanks, out, rfl, passed, blank, opens, reads⟩ :=
          alike bodyReady taken stops
        have afterReady : Ready after := bodyReady.behind passed (by
          obtain ⟨byte, tail, rfl, -⟩ := stops
          exact List.cons_ne_nil byte tail)
        obtain ⟨textMore, outMore, rfl, passedMore, count, readsMore⟩ :=
          inductionHypothesis afterReady more
        have commaPassed : Passed [comma] [comma] := passed_plain (forall_mem_of_all (by decide))
        refine ⟨[comma] ++ (text ++ textMore), [comma] ++ ((blanks ++ out) ++ outMore), ?_,
          commaPassed.append (passed.append passedMore), ?_, ?_⟩
        · simp only [List.append_assoc, List.cons_append, List.nil_append]
        · simp only [List.length_cons, List.length_append]
          omega
        · intro limit turns rest enough room
          simp only [List.length_append] at enough
          cases turns with
          | zero => cases room
          | succ turns =>
              have readMore := @readsMore limit turns rest (by omega) (Nat.lt_of_succ_lt_succ room)
              have read := @reads blanks limit _ blank (by omega)
                (stops_of_parseEntries isClosing readMore)
              have whole : [comma] ++ ((blanks ++ out) ++ outMore) ++ closing :: rest =
                  comma :: (blanks ++ (out ++ (outMore ++ closing :: rest))) := by
                simp
              rw [whole, CJSON.parseEntries, CJSON.peek_cons, Outcome.ok_bind,
                if_neg (by decide), List.drop_succ_cons, List.drop_zero, read, Outcome.ok_bind]
              dsimp only
              rw [readMore]
              rfl
      · rw [if_pos separates] at parsed
        cases parsed
        refine ⟨[], [], rfl, passed_plain (by simp), le_rfl, fun _ room => ?_⟩
        obtain ⟨turns, rfl⟩ := Nat.exists_eq_add_of_lt room
        rw [List.nil_append, CJSON.parseEntries, CJSON.peek_cons, Outcome.ok_bind,
          if_pos isClosing.ne_comma]
        rfl

theorem EntryAlike.parseContainer
    (alike : EntryAlike closing entry entries)
    (isClosing : CJSON.IsClosing closing)
    {opening : UInt8}
    (plain : Plain opening)
    (nonzero : opening ≠ 0)
    {value rest : Bytes}
    {children : List CJSON}
    (ready : Ready value)
    (parsed : CJSON.parseContainer opening closing entry value = .ok (children, rest)) :
    ∃ text out, value = text ++ rest ∧ Passed text (opening :: out) ∧
      ∀ {limit rest}, out.length < limit →
        CJSON.parseContainer opening closing (entries limit) (opening :: (out ++ rest)) =
          .ok (children, rest) := by
  obtain ⟨body, start, rfl, skipped, contents⟩ := CJSON.parseContainer_cases parsed
  obtain ⟨blanks, rfl, blank, byte, tail, rfl, -⟩ := exists_of_skip skipped
  obtain ⟨outBlanks, passed, outBlank⟩ := exists_passed_blank blank
  have startReady := (ready.of_cons plain nonzero).behind passed (List.cons_ne_nil byte tail)
  have openingPassed : Passed [opening] [opening] := passed_plain (by simpa using plain)
  have closingPassed : Passed [closing] [closing] := by
    rcases isClosing with rfl | rfl <;> exact passed_plain (forall_mem_of_all (by decide))
  rcases contents with ⟨rfl, closes⟩ | ⟨child, after, more, taken, others, rfl⟩
  · rw [closes]
    refine ⟨[opening] ++ (blanks ++ [closing]), outBlanks ++ [closing], ?_,
      openingPassed.append (passed.append closingPassed), fun _ => ?_⟩
    · simp
    · rw [CJSON.parseContainer, CJSON.peek_cons, Outcome.ok_bind, if_neg (by simp),
        List.drop_succ_cons, List.drop_zero, List.append_assoc, CJSON.skip_append outBlank,
        List.singleton_append, CJSON.skip_of_lt isClosing.visible, Outcome.ok_bind,
        CJSON.peek_cons, Outcome.ok_bind, if_pos rfl]
      rfl
  · have stops := stops_of_parseEntries isClosing others
    obtain ⟨text, blanksFirst, out, same, firstPassed, blankFirst, opens, reads⟩ :=
      alike startReady taken stops
    rw [same] at startReady
    have afterReady : Ready after := startReady.behind firstPassed (by
      obtain ⟨byte, tail, rfl, -⟩ := stops
      exact List.cons_ne_nil byte tail)
    obtain ⟨textMore, outMore, rfl, passedMore, count, readsMore⟩ :=
      alike.parseEntries isClosing afterReady others
    refine ⟨[opening] ++ (blanks ++ (text ++ (textMore ++ [closing]))),
      outBlanks ++ ((blanksFirst ++ out) ++ (outMore ++ [closing])), ?_,
      openingPassed.append (passed.append (firstPassed.append
        (passedMore.append closingPassed))), ?_⟩
    · rw [same]
      simp
    · intro limit rest enough
      simp only [List.length_append] at enough
      have readMore := @readsMore limit (outMore ++ closing :: rest).length rest (by omega) (by
        rw [List.length_append, List.length_cons]
        omega)
      have read := @reads [] limit _ CJSON.isBlank_nil (by omega)
        (stops_of_parseEntries isClosing readMore)
      have whole : outBlanks ++ ((blanksFirst ++ out) ++ (outMore ++ [closing])) ++ rest =
          (outBlanks ++ blanksFirst) ++ (out ++ (outMore ++ closing :: rest)) := by
        simp
      rw [List.nil_append] at read
      rw [whole, CJSON.parseContainer, CJSON.peek_cons, Outcome.ok_bind, if_neg (by simp),
        List.drop_succ_cons, List.drop_zero, opens.skip (outBlank.append blankFirst),
        Outcome.ok_bind]
      obtain ⟨first, tail, rfl, -, noClosing⟩ := opens
      rw [List.cons_append, CJSON.peek_cons, Outcome.ok_bind, if_neg noClosing,
        ← List.cons_append, read, Outcome.ok_bind]
      dsimp only
      rw [readMore, Outcome.ok_bind]
      dsimp only
      rw [CJSON.peek_cons, Outcome.ok_bind, if_pos rfl]
      rfl

end Containers

/-! ### Values -/

section Values

variable {item : CJSON}
variable {value : Bytes}
variable {result : CJSON × Bytes}

/-- A literal is taken as it is. -/
theorem alike_literal
    {literal : Bytes}
    {new : CJSON}
    (plain : ∀ byte ∈ literal, Plain byte)
    (visible : CJSON.Visible literal)
    (reads : ∀ limit rest, parseValue (limit + 1) item (literal ++ rest) = .ok (new, rest))
    (starts : startsWith literal value = .ok true) :
    Alike NumberEnds (fun limit => parseValue limit item) value
      (new, value.drop literal.length) := by
  obtain ⟨rest, rfl⟩ : literal <+: value := by
    rcases CJSON.startsWith_cases literal value with ⟨found, -⟩ | ⟨-, ⟨-, other⟩ | ⟨-, other⟩⟩
    · exact found
    · rw [other] at starts
      cases starts
    · rw [other] at starts
      cases starts
  refine ⟨literal, literal, by rw [List.drop_left], passed_plain plain, visible,
    fun limit rest enough _ => ?_⟩
  obtain ⟨limit, rfl⟩ := Nat.exists_eq_add_of_lt enough
  exact reads _ rest

theorem alike_string
    (ready : Ready value)
    (parsed : parseString item value = .ok result) :
    Alike NumberEnds (fun limit => parseValue limit item) value result := by
  obtain ⟨chars, text, rfl, isChars, isString, parses⟩ := exists_of_parseString ready parsed
  refine ⟨quote :: (chars ++ [quote]), quote :: (chars ++ [quote]), by simp,
    passed_literal isChars, ⟨quote, _, rfl, by decide, by decide⟩, fun limit rest enough _ => ?_⟩
  obtain ⟨limit, rfl⟩ := Nat.exists_eq_add_of_lt enough
  have whole : quote :: (chars ++ [quote]) ++ rest = quote :: (chars ++ quote :: rest) := by simp
  rw [whole, isString]
  exact parses item rest

theorem alike_number
    {byte : UInt8}
    (numeric : byte = minus ∨ Decimal.isDigit byte = true)
    (ready : Ready (byte :: value))
    (parsed : parseNumber item (byte :: value) = .ok result)
    (ends : NumberEnds result.2) :
    Alike NumberEnds (fun limit => parseValue limit item) (byte :: value) result := by
  have checked : ∀ byte : UInt8, byte = minus ∨ Decimal.isDigit byte = true →
      IsNumeral byte ∧ 32 < byte ∧ byte ≠ closeBracket :=
    forall_byte (by decide)
  obtain ⟨isNumeral, visible⟩ := checked byte numeric
  obtain ⟨run, behind, rfl, numerals, stops⟩ := ready.exists_numeral isNumeral
  obtain ⟨number, left, isLeft, reads⟩ := parseNumber_local item (byte :: run)
  have runNumerals : ∀ other ∈ byte :: run, IsNumeral other :=
    List.forall_mem_cons.mpr ⟨isNumeral, numerals⟩
  have parsedRun := reads behind stops
  rw [List.cons_append, parsed] at parsedRun
  obtain rfl := Except.ok.inj parsedRun
  -- A numeral that is left over would continue the number.
  obtain rfl : left = [] := by
    cases left with
    | nil => rfl
    | cons other left =>
        obtain ⟨first, tail, same, notNumeral⟩ := ends
        obtain ⟨rfl, -⟩ := List.cons.inj same
        exact absurd (runNumerals other (isLeft.subset List.mem_cons_self)) notNumeral
  refine ⟨byte :: run, byte :: run, rfl,
    passed_plain fun other inside => isNumeral_plain other (runNumerals other inside),
    ⟨byte, run, rfl, visible⟩, fun limit rest enough stops => ?_⟩
  obtain ⟨limit, rfl⟩ := Nat.exists_eq_add_of_lt enough
  change parseValue (_ + 1) item (byte :: (run ++ rest)) = _
  rw [CJSON.parseValue_number numeric, ← List.cons_append, reads rest stops]
  rfl

/-- An array or object. -/
theorem alike_container
    {opening closing : UInt8}
    {entry : Bytes → Except ParseError (CJSON × Bytes)}
    {entries : Nat → Bytes → Except ParseError (CJSON × Bytes)}
    (alike : EntryAlike closing entry entries)
    (isClosing : CJSON.IsClosing closing)
    (opens : Plain opening ∧ 32 < opening ∧ opening ≠ closeBracket)
    (type : CJSONType)
    (reads : ∀ limit tail, parseValue (limit + 1) item (opening :: tail) =
      CJSON.parseContainer opening closing (entries limit) (opening :: tail) >>= fun result =>
        .ok ({ item with type := type, child := result.1 }, result.2))
    (ready : Ready value)
    (parsed : (CJSON.parseContainer opening closing entry value >>= fun result =>
      .ok ({ item with type := type, child := result.1 }, result.2)) = .ok result) :
    Alike NumberEnds (fun limit => parseValue limit item) value result := by
  obtain ⟨⟨children, rest⟩, contained, built⟩ := Outcome.bind_eq_ok_iff.mp parsed
  cases built
  obtain ⟨plain, visible, notBracket⟩ := opens
  have nonzero : opening ≠ 0 := by
    rintro rfl
    exact absurd visible (by decide)
  obtain ⟨text, out, rfl, passed, readsContents⟩ :=
    alike.parseContainer isClosing plain nonzero ready contained
  refine ⟨text, opening :: out, rfl, passed, ⟨opening, out, rfl, visible, notBracket⟩,
    fun limit rest enough _ => ?_⟩
  cases limit with
  | zero => cases enough
  | succ limit =>
      change parseValue (limit + 1) item (opening :: (out ++ rest)) = _
      rw [reads, readsContents (Nat.lt_of_succ_lt_succ enough)]
      rfl

theorem parseValue_alike (depth : Nat) : ValueAlike (parseValue depth) := by
  induction depth with
  | zero =>
      intro item value result _ parsed
      cases parsed
  | succ depth inductionHypothesis =>
      intro item value result ready parsed ends
      obtain ⟨isNull, compared, parsed⟩ := Outcome.bind_eq_ok_iff.mp parsed
      cases isNull with
      | true =>
          cases parsed
          exact alike_literal (forall_mem_of_all (by decide)) ⟨_, _, rfl, by decide, by decide⟩
            (fun _ _ => rfl) compared
      | false =>
      obtain ⟨isFalse, compared, parsed⟩ := Outcome.bind_eq_ok_iff.mp parsed
      cases isFalse with
      | true =>
          cases parsed
          exact alike_literal (forall_mem_of_all (by decide)) ⟨_, _, rfl, by decide, by decide⟩
            (fun _ _ => rfl) compared
      | false =>
      obtain ⟨isTrue, compared, parsed⟩ := Outcome.bind_eq_ok_iff.mp parsed
      cases isTrue with
      | true =>
          cases parsed
          exact alike_literal (forall_mem_of_all (by decide)) ⟨_, _, rfl, by decide, by decide⟩
            (fun _ _ => rfl) compared
      | false =>
      obtain ⟨byte, peeked, parsed⟩ := Outcome.bind_eq_ok_iff.mp parsed
      obtain ⟨tail, rfl⟩ := (CJSON.peek_returns value).of_eq_ok peeked
      by_cases isQuote : byte = quote
      · rw [if_pos isQuote] at parsed
        exact alike_string ready parsed
      rw [if_neg isQuote] at parsed
      by_cases numeric : byte = minus ∨ Decimal.isDigit byte = true
      · rw [if_pos numeric] at parsed
        exact alike_number numeric ready parsed ends
      rw [if_neg numeric] at parsed
      by_cases isBracket : byte = openBracket
      · subst isBracket
        exact alike_container inductionHypothesis.element (.inl rfl) (by decide) .array
          (fun _ _ => rfl) ready parsed
      rw [if_neg isBracket] at parsed
      by_cases isBrace : byte = openBrace
      · subst isBrace
        exact alike_container inductionHypothesis.member (.inr rfl) (by decide) .object
          (fun _ _ => rfl) ready parsed
      rw [if_neg isBrace] at parsed
      cases parsed

end Values

/-- A text that the parser takes up to its end, that does not end inside a string or a
comment between stars, and in which every escape of four digits is complete, is parsed
to the same tree when `cJSON_Minify` has minified it. -/
theorem parse_minifyIn
    (text : CString)
    (tree : CJSON)
    (ending : Bytes)
    (parsed : CJSON.parseWithOpts (text.val ++ [0]) true = .ok (tree, ending))
    (closed : minified text.val ≠ none)
    (complete : EscapesComplete .outside text.val) :
    ∃ out stale, minifyIn (text.val ++ [0]) = .ok (out ++ 0 :: stale) ∧
      (0 : UInt8) ∉ out ∧
      CJSON.parseWithOpts (out ++ 0 :: stale) true = .ok (tree, 0 :: stale) := by
  have ready : Ready (text.val ++ [0]) := ⟨text.val, rfl, text.property, closed, complete⟩
  rw [CJSON.parseWithOpts] at parsed
  obtain ⟨start, skipped, parsed⟩ := Outcome.bind_eq_ok_iff.mp parsed
  obtain ⟨⟨c, behind⟩, taken, parsed⟩ := Outcome.bind_eq_ok_iff.mp parsed
  obtain ⟨final, skippedBehind, parsed⟩ := Outcome.bind_eq_ok_iff.mp parsed
  obtain ⟨last, peeked, parsed⟩ := Outcome.bind_eq_ok_iff.mp parsed
  obtain ⟨garbage, rfl⟩ := (CJSON.peek_returns final).of_eq_ok peeked
  by_cases terminated : last = 0
  · subst terminated
    cases parsed
    have stops (rest : Bytes) : Stops (0 :: rest) := ⟨0, rest, rfl, by decide, by decide⟩
    obtain ⟨front, blanks, out, same, passed, blank, -, reads⟩ :=
      (parseValue_alike _).between ready skipped taken skippedBehind (stops garbage)
    -- The text has no other terminator than its own.
    obtain rfl : text.val = front := by
      rcases List.eq_nil_or_concat' garbage with rfl | ⟨behind, byte, rfl⟩
      · exact (List.append_inj' same rfl).1
      · rw [← List.cons_append, ← List.append_assoc] at same
        have inside := (List.append_inj' same rfl).1
        exact absurd (inside ▸ List.mem_append_right front List.mem_cons_self) text.property
    have kept : minified text.val = some (blanks ++ out) := by
      have leads := passed.leads []
      rw [List.append_nil] at leads
      rw [minified, leads]
      simp [minifiedFrom]
    rcases minifyIn_run text [] with ⟨result, stale, isResult, nonzero, -, ran⟩ | ⟨ends, -⟩
    · rw [kept] at isResult
      cases isResult
      rw [List.append_nil] at ran
      refine ⟨blanks ++ out, stale, ran, nonzero, ?_⟩
      obtain ⟨behind, skips, parses, skipsBehind⟩ :=
        @reads blanks ((blanks ++ (out ++ 0 :: stale)).length + 1) (0 :: stale) blank
          (by simp only [List.length_append]; omega) (stops stale)
      rw [List.append_assoc, CJSON.parseWithOpts, skips, Outcome.ok_bind, parses,
        Outcome.ok_bind]
      dsimp only
      rw [if_pos rfl, skipsBehind, Outcome.ok_bind, CJSON.peek_cons, Outcome.ok_bind,
        if_neg (by decide)]
      rfl
    · exact absurd ends closed
  · rw [if_pos terminated] at parsed
    cases parsed

/-- `[ "\u0041" ]` is minified to `["\u0041"]`, which says the same. -/
theorem parse_minifyIn_letter :
    ∃ out stale,
      minifyIn (ascii ['[', ' ', '"', '\\', 'u', '0', '0', '4', '1', '"', ' ', ']'] ++ [0]) =
        .ok (out ++ 0 :: stale) ∧ (0 : UInt8) ∉ out ∧
      CJSON.parseWithOpts (out ++ 0 :: stale) true =
        .ok ({ CJSON.newItem with
          type := .array
          child := [{ CJSON.newItem with
            type := .string, valuestring := some ⟨ascii ['A'], by decide⟩ }] }, 0 :: stale) :=
  parse_minifyIn
    ⟨ascii ['[', ' ', '"', '\\', 'u', '0', '0', '4', '1', '"', ' ', ']'], by decide⟩ _ [0] rfl
    (by decide) ⟨fun _ => by decide, trivial⟩

end ProtobufSandbox
