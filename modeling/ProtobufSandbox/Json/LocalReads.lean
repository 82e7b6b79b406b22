import ProtobufSandbox.Json.MinifiedPrints
import ProtobufSandbox.Json.Scalars

/-!
# Strings and numbers in a text

What the parser takes of a string that is closed and has complete escapes, or of a
numeral, does not depend on what is behind it.
-/

namespace ProtobufSandbox

open CJSON (peek parseNumber)

/-! ## Strings -/

/-- Four hexadecimal digits. -/
def FourDigits (text : Bytes) : Prop :=
  (text.take 4).length = 4 ∧
    (text.take 4).all (fun byte => (CJSON.hexDigit? byte).isSome) = true

instance : DecidablePred FourDigits :=
  fun text => inferInstanceAs (Decidable ((text.take 4).length = 4 ∧
    (text.take 4).all (fun byte => (CJSON.hexDigit? byte).isSome) = true))

theorem FourDigits.hexadecimal
    {text : Bytes}
    (digits : FourDigits text) :
    ∀ byte ∈ text.take 4, CJSON.hexDigit? byte ≠ none :=
  fun byte inside =>
    Option.isSome_iff_ne_none.mp (List.all_eq_true.mp digits.2 byte inside)

/-- From a place in a text on, every escape of four digits in a string has them. -/
def EscapesComplete : Place → Bytes → Prop
  | _, [] => True
  | .string, byte :: text =>
      if byte = quote then EscapesComplete .outside text
      else if byte = backslash then EscapesComplete .escaped text
      else EscapesComplete .string text
  | .escaped, byte :: text =>
      (byte = UInt8.ofNat 'u'.toNat → FourDigits text) ∧ EscapesComplete .string text
  | .outside, byte :: text | .line, byte :: text | .comment, byte :: text
  | .closing, byte :: text =>
      if byte = quote then EscapesComplete .string text else EscapesComplete .outside text

/-- The characters of a string, with complete escapes. -/
inductive Characters : Bytes → Prop where
  | nil : Characters []
  | plain {byte : UInt8} {text : Bytes}
      (visible : Unescaped byte)
      (present : byte ≠ 0)
      (others : Characters text) : Characters (byte :: text)
  | escape {byte : UInt8} {text : Bytes}
      (other : byte ≠ UInt8.ofNat 'u'.toNat)
      (others : Characters text) : Characters (backslash :: byte :: text)
  | unicode {digits text : Bytes}
      (four : digits.length = 4)
      (hexadecimal : ∀ byte ∈ digits, CJSON.hexDigit? byte ≠ none)
      (others : Characters text) :
      Characters (backslash :: UInt8.ofNat 'u'.toNat :: (digits ++ text))

theorem hexDigit_plain :
    ∀ byte : UInt8, CJSON.hexDigit? byte ≠ none → Unescaped byte ∧ byte ≠ 0 :=
  forall_byte (by decide)

theorem escapesComplete_unescaped
    {text rest : Bytes}
    (unescaped : ∀ byte ∈ text, Unescaped byte)
    (complete : EscapesComplete .string (text ++ rest)) :
    EscapesComplete .string rest := by
  induction text with
  | nil => exact complete
  | cons byte text inductionHypothesis =>
      obtain ⟨⟨stays, visible⟩, others⟩ := List.forall_mem_cons.mp unescaped
      rw [List.cons_append, EscapesComplete, if_neg stays, if_neg visible] at complete
      exact inductionHypothesis others complete

theorem Leads.ne_none
    {place next : Place}
    {text out rest : Bytes}
    (leads : Leads place text out next)
    (closed : minifiedFrom place (text ++ rest) ≠ none) :
    minifiedFrom next rest ≠ none := by
  intro ends
  rw [leads, ends] at closed
  exact closed rfl

/-- A string that is closed ends in front of a quote. -/
theorem exists_characters
    {text : Bytes}
    (present : (0 : UInt8) ∉ text)
    (closed : minifiedFrom .string text ≠ none)
    (complete : EscapesComplete .string text) :
    ∃ chars rest, text = chars ++ quote :: rest ∧ Characters chars := by
  induction length : text.length using Nat.strong_induction_on generalizing text with
  | _ length inductionHypothesis =>
      subst length
      rcases text with - | ⟨byte, text⟩
      · exact absurd rfl closed
      obtain ⟨nonzero, behind⟩ := List.ne_and_not_mem_of_not_mem_cons present
      by_cases ends : byte = quote
      · exact ⟨[], text, by rw [ends]; rfl, .nil⟩
      by_cases escape : byte = backslash
      · subst escape
        rcases text with - | ⟨byte, text⟩
        · exact absurd rfl closed
        obtain ⟨nonzero, behind⟩ := List.ne_and_not_mem_of_not_mem_cons behind
        have closed := (leads_escaped byte).ne_none closed
        obtain ⟨digits, complete⟩ : _ ∧ EscapesComplete .string text := complete
        by_cases isUnicode : byte = UInt8.ofNat 'u'.toNat
        · have four := (digits isUnicode).1
          have hexadecimal := (digits isUnicode).hexadecimal
          have unescaped : ∀ byte ∈ text.take 4, Unescaped byte :=
            fun byte inside => (hexDigit_plain byte (hexadecimal byte inside)).1
          rw [← List.take_append_drop 4 text] at closed complete
          obtain ⟨chars, rest, same, isChars⟩ := inductionHypothesis (text.drop 4).length
            (by simp only [List.length_drop, List.length_cons]; omega)
            (fun inside => behind (List.mem_of_mem_drop inside))
            ((leads_unescaped unescaped).ne_none closed)
            (escapesComplete_unescaped unescaped complete) rfl
          refine ⟨_, rest, ?_, .unicode four hexadecimal isChars⟩
          rw [List.cons_append, List.cons_append, List.append_assoc, ← same,
            List.take_append_drop, isUnicode]
        · obtain ⟨chars, rest, same, isChars⟩ := inductionHypothesis text.length
            (by simp only [List.length_cons]; omega) behind closed complete rfl
          exact ⟨_, rest, by rw [same]; rfl, .escape isUnicode isChars⟩
      · have unescaped : ∀ other ∈ [byte], Unescaped other := by simpa using ⟨ends, escape⟩
        obtain ⟨chars, rest, same, isChars⟩ := inductionHypothesis text.length
          (Nat.lt_succ_self _) behind ((leads_unescaped unescaped).ne_none closed)
          (escapesComplete_unescaped unescaped complete) rfl
        exact ⟨_, rest, by rw [same]; rfl, .plain ⟨ends, escape⟩ nonzero.symm isChars⟩

/-- Characters leave a minifier inside their string. -/
theorem Characters.leads
    {chars : Bytes}
    (isChars : Characters chars) :
    Leads .string chars chars .string := by
  induction isChars with
  | nil => exact leads_nil .string
  | @plain byte text visible present others inductionHypothesis =>
      have single : Leads .string [byte] [byte] .string :=
        leads_unescaped (by simpa using visible)
      exact single.append inductionHypothesis
  | @escape byte text other others inductionHypothesis =>
      exact (leads_escaped byte).append inductionHypothesis
  | @unicode digits text four hexadecimal others inductionHypothesis =>
      have digitsLead : Leads .string digits digits .string :=
        leads_unescaped fun byte inside => (hexDigit_plain byte (hexadecimal byte inside)).1
      exact (leads_escaped _).append (digitsLead.append inductionHypothesis)

theorem Characters.complete
    {chars rest : Bytes}
    (isChars : Characters chars)
    (complete : EscapesComplete .string (chars ++ rest)) :
    EscapesComplete .string rest := by
  induction isChars with
  | nil => exact complete
  | @plain byte text visible present others inductionHypothesis =>
      exact inductionHypothesis
        (@escapesComplete_unescaped [byte] _ (by simpa using visible) complete)
  | @escape byte text other others inductionHypothesis =>
      exact inductionHypothesis complete.2
  | @unicode digits text four hexadecimal others inductionHypothesis =>
      have behind : EscapesComplete .string (digits ++ text ++ rest) := complete.2
      rw [List.append_assoc] at behind
      exact inductionHypothesis (escapesComplete_unescaped
        (fun byte inside => (hexDigit_plain byte (hexadecimal byte inside)).1) behind)

theorem measure_unescaped
    {text ptr : Bytes}
    {len : Nat}
    (unescaped : ∀ byte ∈ text, Unescaped byte ∧ byte ≠ 0)
    (measured : CJSON.measure ptr = .ok len) :
    CJSON.measure (text ++ ptr) = .ok (len + text.length) := by
  induction text with
  | nil => exact measured
  | cons byte text inductionHypothesis =>
      obtain ⟨⟨⟨stays, visible⟩, present⟩, others⟩ := List.forall_mem_cons.mp unescaped
      exact CJSON.measure_ordinary present stays visible (inductionHypothesis others)

/-- The characters of a string are counted up to its quote. -/
theorem Characters.measure
    {chars : Bytes}
    (isChars : Characters chars) :
    ∃ len, ∀ rest, CJSON.measure (chars ++ quote :: rest) = .ok len := by
  induction isChars with
  | nil => exact ⟨0, CJSON.measure_quote⟩
  | @plain byte text visible present others inductionHypothesis =>
      obtain ⟨len, counted⟩ := inductionHypothesis
      exact ⟨len + 1, fun rest =>
        CJSON.measure_ordinary present visible.1 visible.2 (counted rest)⟩
  | @escape byte text other others inductionHypothesis =>
      obtain ⟨len, counted⟩ := inductionHypothesis
      exact ⟨len + 1, fun rest => CJSON.measure_backslash byte (counted rest)⟩
  | @unicode digits text four hexadecimal others inductionHypothesis =>
      obtain ⟨len, counted⟩ := inductionHypothesis
      refine ⟨len + digits.length + 1, fun rest => CJSON.measure_backslash _ ?_⟩
      have plain := measure_unescaped
        (fun byte inside => hexDigit_plain byte (hexadecimal byte inside)) (counted rest)
      rw [← List.append_assoc] at plain
      exact plain

/-! ### The copy of a string -/

/-- Digits are read without a look at what is behind them. -/
theorem readHex_append
    {digits : Bytes}
    (h : UInt32)
    (rest : Bytes) :
    CJSON.readHex digits.length h (digits ++ rest) = CJSON.readHex digits.length h digits := by
  induction digits generalizing h with
  | nil => rfl
  | cons byte digits inductionHypothesis =>
      simp only [List.length_cons, List.cons_append, CJSON.readHex, CJSON.peek_cons,
        Outcome.ok_bind, List.drop_succ_cons, List.drop_zero, inductionHypothesis]

theorem exists_parseHex4
    {digits : Bytes}
    (four : digits.length = 4) :
    ∃ h, ∀ rest, CJSON.parseHex4 (digits ++ rest) = .ok h := by
  have read (digits : Bytes) (h : UInt32) :
      ∃ result, CJSON.readHex digits.length h digits = .ok result := by
    induction digits generalizing h with
    | nil => exact ⟨h, rfl⟩
    | cons byte digits inductionHypothesis =>
        simp only [List.length_cons, CJSON.readHex, CJSON.peek_cons, Outcome.ok_bind]
        cases CJSON.hexDigit? byte with
        | none => exact ⟨0, rfl⟩
        | some digit => exact inductionHypothesis _
  obtain ⟨h, result⟩ := read digits 0
  refine ⟨h, fun rest => ?_⟩
  have same := @readHex_append digits 0 rest
  rw [result, four] at same
  exact same

/-- What is behind a backslash: what is written for it, the byte in front of the
characters that are left, and those. -/
def Unescapes (code : Bytes) : Prop :=
  ∃ bytes last chars, Characters chars ∧ chars.length < code.length ∧
    ∀ rest, CJSON.unescape (code ++ quote :: rest) =
      .ok (bytes, last :: (chars ++ quote :: rest))

theorem unescapes_escape
    {byte : UInt8}
    {text : Bytes}
    (other : byte ≠ UInt8.ofNat 'u'.toNat)
    (others : Characters text) :
    Unescapes (byte :: text) := by
  have unescaped : ∃ bytes, ∀ rest, CJSON.unescape (byte :: rest) = .ok (bytes, byte :: rest) := by
    simp only [CJSON.unescape, CJSON.peek_cons, Outcome.ok_bind, if_neg other]
    split_ifs <;> exact ⟨_, fun _ => rfl⟩
  obtain ⟨bytes, unescaped⟩ := unescaped
  exact ⟨bytes, byte, text, others, Nat.lt_succ_self _, fun rest => unescaped _⟩

/-- The part of `transcode` behind the first half of a pair, with the last byte of that
half. -/
def transcodePair (uc : UInt32) (last : UInt8) (text : Bytes) :
    Except ParseError (Bytes × Bytes) := do
  if (← peek text) ≠ backslash then return ([], last :: text)
  if (← peek (text.drop 1)) ≠ UInt8.ofNat 'u'.toNat then return ([], last :: text)
  let uc2 ← CJSON.parseHex4 (text.drop 2)
  let ptr := text.drop 5
  if uc2 < 0xDC00 ∨ 0xDFFF < uc2 then return ([], ptr)
  let uc := (0x10000 : UInt32) + (((uc &&& 0x3FF) <<< 10) ||| (uc2 &&& 0x3FF))
  return (CJSON.encodeUtf8 uc, ptr)

theorem exists_four
    {digits : Bytes}
    (four : digits.length = 4) :
    ∃ first second third last, digits = [first, second, third, last] := by
  match digits, four with
  | [first, second, third, last], _ => exact ⟨first, second, third, last, rfl⟩

/-- An escape of four digits takes another one with it if the first is the first half
of a pair. -/
theorem unescapes_unicode
    {digits text : Bytes}
    (four : digits.length = 4)
    (others : Characters text) :
    Unescapes (UInt8.ofNat 'u'.toNat :: (digits ++ text)) := by
  obtain ⟨uc, read⟩ := exists_parseHex4 four
  obtain ⟨first, second, third, last, rfl⟩ := exists_four four
  have shorter : text.length <
      (UInt8.ofNat 'u'.toNat :: ([first, second, third, last] ++ text)).length := by
    simp only [List.length_cons, List.length_append]
    omega
  -- What is returned of this escape alone.
  have alone (bytes : Bytes)
      (same : ∀ rest, CJSON.unescape
        (UInt8.ofNat 'u'.toNat :: ([first, second, third, last] ++ text) ++ quote :: rest) =
          .ok (bytes, last :: (text ++ quote :: rest))) :
      Unescapes (UInt8.ofNat 'u'.toNat :: ([first, second, third, last] ++ text)) :=
    ⟨bytes, last, text, others, shorter, same⟩
  have transcoded (rest : Bytes) : CJSON.unescape
      (UInt8.ofNat 'u'.toNat :: ([first, second, third, last] ++ text) ++ quote :: rest) =
        CJSON.transcode (UInt8.ofNat 'u'.toNat ::
          ([first, second, third, last] ++ (text ++ quote :: rest))) := rfl
  by_cases dropped : (0xDC00 ≤ uc ∧ uc ≤ 0xDFFF) ∨ uc = 0
  · refine alone [] fun rest => ?_
    rw [transcoded, CJSON.transcode, List.drop_succ_cons, List.drop_zero, read, Outcome.ok_bind,
      if_pos dropped]
    rfl
  by_cases high : 0xD800 ≤ uc ∧ uc ≤ 0xDBFF
  · have behind (rest : Bytes) : CJSON.unescape
        (UInt8.ofNat 'u'.toNat :: ([first, second, third, last] ++ text) ++ quote :: rest) =
          transcodePair uc last (text ++ quote :: rest) := by
      rw [transcoded, CJSON.transcode, List.drop_succ_cons, List.drop_zero, read,
        Outcome.ok_bind, if_neg dropped, if_pos high]
      rfl
    cases others with
    | nil => exact alone [] fun rest => behind rest
    | @plain byte text visible present others =>
        refine alone [] fun rest => (behind rest).trans ?_
        rw [transcodePair, List.cons_append, CJSON.peek_cons, Outcome.ok_bind, if_pos visible.2]
        rfl
    | @escape byte text other others =>
        refine alone [] fun rest => (behind rest).trans ?_
        rw [transcodePair, List.cons_append, CJSON.peek_cons, Outcome.ok_bind,
          if_neg (by decide), List.drop_succ_cons, List.drop_zero, List.cons_append,
          CJSON.peek_cons, Outcome.ok_bind, if_pos other]
        rfl
    | @unicode digits text four hexadecimal others =>
        obtain ⟨uc2, readSecond⟩ := exists_parseHex4 four
        obtain ⟨fifth, sixth, seventh, final, rfl⟩ := exists_four four
        have pair (rest : Bytes) : transcodePair uc last
            (backslash :: UInt8.ofNat 'u'.toNat ::
              ([fifth, sixth, seventh, final] ++ text) ++ quote :: rest) =
            if uc2 < 0xDC00 ∨ 0xDFFF < uc2 then
              .ok ([], final :: (text ++ quote :: rest))
            else .ok (CJSON.encodeUtf8
              ((0x10000 : UInt32) + (((uc &&& 0x3FF) <<< 10) ||| (uc2 &&& 0x3FF))),
              final :: (text ++ quote :: rest)) := by
          have digits : CJSON.parseHex4
              (([fifth, sixth, seventh, final] ++ text) ++ quote :: rest) = .ok uc2 := by
            rw [List.append_assoc]
            exact readSecond _
          rw [transcodePair, List.cons_append, CJSON.peek_cons, Outcome.ok_bind,
            if_neg (by decide), List.drop_succ_cons, List.drop_zero, List.cons_append,
            CJSON.peek_cons, Outcome.ok_bind, if_neg (by decide), List.drop_succ_cons,
            List.drop_succ_cons, List.drop_zero, digits, Outcome.ok_bind]
          rfl
        have left : text.length < (UInt8.ofNat 'u'.toNat :: ([first, second, third, last] ++
            (backslash :: UInt8.ofNat 'u'.toNat ::
              ([fifth, sixth, seventh, final] ++ text)))).length := by
          simp only [List.length_cons, List.length_append]
          omega
        by_cases outside : uc2 < 0xDC00 ∨ 0xDFFF < uc2
        · exact ⟨[], final, text, others, left, fun rest =>
            (behind rest).trans ((pair rest).trans (if_pos outside))⟩
        · exact ⟨_, final, text, others, left, fun rest =>
            (behind rest).trans ((pair rest).trans (if_neg outside))⟩
  · refine alone (CJSON.encodeUtf8 uc) fun rest => ?_
    rw [transcoded, CJSON.transcode, List.drop_succ_cons, List.drop_zero, read, Outcome.ok_bind,
      if_neg dropped, if_neg high]
    rfl

/-- The second loop of `parse_string` copies the characters up to the quote, whatever is
behind it. -/
def Copies (size : Nat) (out chars : Bytes) : Prop :=
  ∃ outcome : Except ParseError Bytes, ∀ turns rest, chars.length < turns →
    CJSON.copyString size turns (chars ++ quote :: rest) out =
      outcome.map fun out => (out, quote :: rest)

theorem copies_of_step
    {size : Nat}
    {out bytes chars left : Bytes}
    (shorter : left.length < chars.length)
    (step : ∀ turns rest, CJSON.copyString size (turns + 1) (chars ++ quote :: rest) out =
      CJSON.store size out bytes >>= fun out =>
        CJSON.copyString size turns (left ++ quote :: rest) out)
    (copies : ∀ out, Copies size out left) :
    Copies size out chars := by
  cases stored : CJSON.store size out bytes with
  | error error =>
      refine ⟨.error error, fun turns rest enough => ?_⟩
      obtain ⟨turns, rfl⟩ := Nat.exists_eq_add_of_lt enough
      rw [step, stored]
      rfl
  | ok written =>
      obtain ⟨outcome, copied⟩ := copies written
      refine ⟨outcome, fun turns rest enough => ?_⟩
      obtain ⟨more, rfl⟩ := Nat.exists_eq_add_of_lt enough
      rw [step, stored]
      exact copied _ rest (by omega)

theorem Characters.copies
    {chars : Bytes}
    (isChars : Characters chars)
    (size : Nat)
    (out : Bytes) :
    Copies size out chars := by
  induction length : chars.length using Nat.strong_induction_on generalizing chars out with
  | _ length inductionHypothesis =>
      subst length
      have escaped {code : Bytes} (same : chars = backslash :: code)
          (unescapes : Unescapes code) : Copies size out chars := by
        subst same
        obtain ⟨bytes, last, left, isLeft, shorter, unescaped⟩ := unescapes
        refine @copies_of_step _ _ bytes _ _ (Nat.lt_succ_of_lt shorter)
          (fun turns rest => ?_)
          fun out => inductionHypothesis _ (Nat.lt_succ_of_lt shorter) isLeft out rfl
        rw [List.cons_append, CJSON.copyString, CJSON.peek_cons, Outcome.ok_bind,
          if_neg (by decide), if_neg (by decide), List.drop_succ_cons, List.drop_zero, unescaped]
        rfl
      cases isChars with
      | nil =>
          refine ⟨.ok out, fun turns rest enough => ?_⟩
          obtain ⟨turns, rfl⟩ := Nat.exists_eq_add_of_lt enough
          rfl
      | @plain byte text visible present others =>
          refine @copies_of_step _ _ [byte] _ _ (Nat.lt_succ_self _) (fun turns rest => ?_)
            fun out => inductionHypothesis _ (Nat.lt_succ_self _) others out rfl
          rw [List.cons_append, CJSON.copyString, CJSON.peek_cons, Outcome.ok_bind,
            if_neg (not_or_intro visible.1 present), if_pos visible.2]
          rfl
      | @escape byte text other others => exact escaped rfl (unescapes_escape other others)
      | @unicode digits text four hexadecimal others =>
          exact escaped rfl (unescapes_unicode four others)

/-- A string is parsed without a look at what is behind it. -/
theorem Characters.parseString
    {chars : Bytes}
    (isChars : Characters chars) :
    ∃ outcome : Except ParseError CString, ∀ item rest,
      CJSON.parseString item (quote :: (chars ++ quote :: rest)) =
        outcome.map fun text =>
          ({ item with valuestring := some text, type := .string }, rest) := by
  obtain ⟨len, measured⟩ := isChars.measure
  obtain ⟨outcome, copied⟩ := isChars.copies (len + 1) []
  refine ⟨outcome >>= fun out => (CJSON.store (len + 1) out [0]).map CString.ofBuffer,
    fun item rest => ?_⟩
  have enough : chars.length < (quote :: (chars ++ quote :: rest)).length := by
    simp only [List.length_cons, List.length_append]
    omega
  rw [CJSON.parseString, CJSON.peek_cons, Outcome.ok_bind, if_neg (by decide),
    List.drop_succ_cons, List.drop_zero, measured, Outcome.ok_bind, copied _ _ enough]
  cases outcome with
  | error error => rfl
  | ok out =>
      change (CJSON.store (len + 1) out [0] >>= _) = ((CJSON.store (len + 1) out [0]).map _).map _
      cases CJSON.store (len + 1) out [0] <;> rfl

/-! ## Numbers -/

/-- A text that does not continue a numeral. -/
def NumberEnds (rest : Bytes) : Prop :=
  ∃ byte text, rest = byte :: text ∧ ¬ IsNumeral byte

/-- The bytes of a numeral are read without a look at what is behind them, but for its
first byte. -/
theorem readDigits_local
    {R : Type}
    [Semiring R]
    (n : R)
    (run : Bytes) :
    ∃ value count left, left <:+ run ∧ ∀ rest, NumberEnds rest →
      CJSON.readDigits n (run ++ rest) = .ok (value, count, left ++ rest) := by
  induction run generalizing n with
  | nil =>
      refine ⟨n, 0, [], List.suffix_rfl, ?_⟩
      rintro _ ⟨byte, text, rfl, ends⟩
      rw [List.nil_append, CJSON.readDigits, if_neg fun digit => ends (.inl digit)]
  | cons byte run inductionHypothesis =>
      by_cases digit : Decimal.isDigit byte = true
      · obtain ⟨value, count, left, behind, reads⟩ := inductionHypothesis (Decimal.extend n byte)
        refine ⟨value, count + 1, left, behind.trans (List.suffix_cons _ _), ?_⟩
        intro rest ends
        rw [List.cons_append, CJSON.readDigits, if_pos digit, reads rest ends]
        rfl
      · refine ⟨n, 0, byte :: run, List.suffix_rfl, fun rest _ => ?_⟩
        rw [List.cons_append, CJSON.readDigits, if_neg digit]

/-- A numeral begins with a byte of a kind, or there is no such byte, whatever is
behind it. -/
theorem peek_cases
    {test : UInt8 → Prop}
    (numerals : ∀ byte, test byte → IsNumeral byte)
    (run : Bytes) :
    (∃ byte tail, run = byte :: tail ∧ test byte) ∨
      ∀ rest, NumberEnds rest → ∃ byte, peek (run ++ rest) = .ok byte ∧ ¬ test byte := by
  cases run with
  | nil =>
      right
      rintro _ ⟨byte, text, rfl, ends⟩
      exact ⟨byte, rfl, fun holds => ends (numerals byte holds)⟩
  | cons byte tail =>
      by_cases holds : test byte
      · exact .inl ⟨byte, tail, rfl, holds⟩
      · exact .inr fun rest _ => ⟨byte, rfl, holds⟩

theorem readSign_local (run : Bytes) :
    ∃ value left, left <:+ run ∧ ∀ rest, NumberEnds rest →
      CJSON.readSign (run ++ rest) = .ok (value, left ++ rest) := by
  have numerals : ∀ byte, byte = minus → IsNumeral byte := fun _ same => .inr (.inl same)
  rcases peek_cases numerals run with ⟨byte, tail, rfl, rfl⟩ | other
  · exact ⟨-1, tail, List.suffix_cons _ _, fun rest _ => rfl⟩
  · refine ⟨1, run, List.suffix_rfl, fun rest ends => ?_⟩
    obtain ⟨byte, peeked, different⟩ := other rest ends
    rw [CJSON.readSign, peeked, Outcome.ok_bind, if_neg different]
    rfl

theorem readWhole_local (run : Bytes) :
    ∃ value left, left <:+ run ∧ ∀ rest, NumberEnds rest →
      CJSON.readWhole (run ++ rest) = .ok (value, left ++ rest) := by
  have isZero : ∀ byte, byte = zeroDigit → IsNumeral byte := by
    rintro _ rfl
    decide
  have isDigit : ∀ byte : UInt8, zeroDigit < byte ∧ byte ≤ 57 → IsNumeral byte :=
    forall_byte (by decide)
  -- The digits behind a leading zero.
  obtain ⟨behind, isBehind, passed⟩ : ∃ behind, behind <:+ run ∧ ∀ rest, NumberEnds rest →
      ∃ byte, peek (run ++ rest) = .ok byte ∧
        (if byte = zeroDigit then (run ++ rest).drop 1 else run ++ rest) = behind ++ rest := by
    rcases peek_cases isZero run with ⟨byte, tail, rfl, rfl⟩ | other
    · exact ⟨tail, List.suffix_cons _ _, fun rest _ => ⟨_, rfl, rfl⟩⟩
    · refine ⟨run, List.suffix_rfl, fun rest ends => ?_⟩
      obtain ⟨byte, peeked, different⟩ := other rest ends
      exact ⟨byte, peeked, if_neg different⟩
  rcases peek_cases isDigit behind with ⟨byte, tail, rfl, digit⟩ | other
  · obtain ⟨value, count, left, isLeft, reads⟩ := readDigits_local (0 : Rat) (byte :: tail)
    refine ⟨value, left, isLeft.trans isBehind, fun rest ends => ?_⟩
    obtain ⟨first, peeked, same⟩ := passed rest ends
    rw [CJSON.readWhole, peeked, Outcome.ok_bind, same]
    dsimp only
    rw [List.cons_append, CJSON.peek_cons, Outcome.ok_bind, if_pos digit, ← List.cons_append,
      reads rest ends]
    rfl
  · refine ⟨0, behind, isBehind, fun rest ends => ?_⟩
    obtain ⟨first, peeked, same⟩ := passed rest ends
    obtain ⟨byte, peekedBehind, different⟩ := other rest ends
    rw [CJSON.readWhole, peeked, Outcome.ok_bind, same]
    dsimp only
    rw [peekedBehind, Outcome.ok_bind, if_neg different]
    rfl

theorem readFraction_local (n : Rat) (run : Bytes) :
    ∃ value scale left, left <:+ run ∧ ∀ rest, NumberEnds rest →
      CJSON.readFraction n (run ++ rest) = .ok (value, scale, left ++ rest) := by
  have isPoint : ∀ byte, byte = point → IsNumeral byte := fun _ same => .inr (.inr (.inl same))
  rcases peek_cases isPoint run with ⟨byte, tail, rfl, rfl⟩ | other
  · rcases peek_cases (fun _ => .inl) tail with ⟨byte, digits, rfl, digit⟩ | other
    · obtain ⟨value, scale, left, isLeft, reads⟩ := readDigits_local n (byte :: digits)
      refine ⟨value, scale, left, isLeft.trans (List.suffix_cons _ _), fun rest ends => ?_⟩
      rw [List.cons_append, CJSON.readFraction, CJSON.peek_cons, Outcome.ok_bind, if_pos rfl,
        List.drop_succ_cons, List.drop_zero, List.cons_append, CJSON.peek_cons,
        Outcome.ok_bind, if_pos digit, ← List.cons_append, reads rest ends]
    · refine ⟨n, 0, point :: tail, List.suffix_rfl, fun rest ends => ?_⟩
      obtain ⟨byte, peeked, different⟩ := other rest ends
      rw [List.cons_append, CJSON.readFraction, CJSON.peek_cons, Outcome.ok_bind, if_pos rfl,
        List.drop_succ_cons, List.drop_zero, peeked, Outcome.ok_bind, if_neg different]
      rfl
  · refine ⟨n, 0, run, List.suffix_rfl, fun rest ends => ?_⟩
    obtain ⟨byte, peeked, different⟩ := other rest ends
    rw [CJSON.readFraction, peeked, Outcome.ok_bind, if_neg different]
    rfl

theorem readExponent_local (run : Bytes) :
    ∃ value left, left <:+ run ∧ ∀ rest, NumberEnds rest →
      CJSON.readExponent (run ++ rest) = .ok (value, left ++ rest) := by
  have isLetter : ∀ byte, byte = UInt8.ofNat 'e'.toNat ∨ byte = UInt8.ofNat 'E'.toNat →
      IsNumeral byte := by
    rintro _ (rfl | rfl) <;> decide
  have isSign : ∀ byte, byte = UInt8.ofNat '+'.toNat ∨ byte = minus → IsNumeral byte := by
    rintro _ (rfl | rfl) <;> decide
  rcases peek_cases isLetter run with ⟨byte, tail, rfl, letter⟩ | other
  · rcases peek_cases isSign tail with ⟨sign, digits, rfl, signed⟩ | other
    · obtain ⟨value, scale, left, isLeft, reads⟩ := readDigits_local (0 : Int) digits
      refine ⟨if sign = minus then -value else value, left,
        isLeft.trans ((List.suffix_cons _ _).trans (List.suffix_cons _ _)), fun rest ends => ?_⟩
      rw [List.cons_append, CJSON.readExponent, CJSON.peek_cons, Outcome.ok_bind, if_pos letter,
        List.drop_succ_cons, List.drop_zero]
      dsimp only
      rw [List.cons_append, CJSON.peek_cons, Outcome.ok_bind, if_pos signed,
        List.drop_succ_cons, List.drop_zero, reads rest ends]
      rfl
    · obtain ⟨value, scale, left, isLeft, reads⟩ := readDigits_local (0 : Int) tail
      refine ⟨value, left, isLeft.trans (List.suffix_cons _ _), fun rest ends => ?_⟩
      obtain ⟨sign, peeked, different⟩ := other rest ends
      rw [List.cons_append, CJSON.readExponent, CJSON.peek_cons, Outcome.ok_bind, if_pos letter,
        List.drop_succ_cons, List.drop_zero]
      dsimp only
      rw [peeked, Outcome.ok_bind, if_neg different, reads rest ends, Outcome.ok_bind]
      dsimp only
      rw [if_neg fun same => different (.inr same)]
      rfl
  · refine ⟨0, run, List.suffix_rfl, fun rest ends => ?_⟩
    obtain ⟨byte, peeked, different⟩ := other rest ends
    rw [CJSON.readExponent, peeked, Outcome.ok_bind, if_neg different]
    rfl

theorem parseNumber_local (item : CJSON) (run : Bytes) :
    ∃ number left, left <:+ run ∧ ∀ rest, NumberEnds rest →
      parseNumber item (run ++ rest) = .ok (number, left ++ rest) := by
  obtain ⟨sign, secondRun, first, readsSign⟩ := readSign_local run
  obtain ⟨n, thirdRun, second, readsWhole⟩ := readWhole_local secondRun
  obtain ⟨total, scale, lastRun, third, readsFraction⟩ := readFraction_local n thirdRun
  obtain ⟨subscale, left, fourth, readsExponent⟩ := readExponent_local lastRun
  refine ⟨{ item with
    valuedouble := sign * total * 10 ^ (subscale - scale)
    valueint := CJSON.toInt (sign * total * 10 ^ (subscale - scale))
    type := .number }, left, fourth.trans (third.trans (second.trans first)), fun rest ends => ?_⟩
  simp only [parseNumber, readsSign rest ends, readsWhole rest ends, readsFraction rest ends,
    readsExponent rest ends, Outcome.ok_bind]
  rfl

end ProtobufSandbox
