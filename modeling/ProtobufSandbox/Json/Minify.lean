import ProtobufSandbox.Foundation.Outcome
import ProtobufSandbox.Json.Print

/-!
# Minifying a text in place

`cJSON_Minify` drops the blanks and the comments of a text. It writes what it keeps
into the block that it reads from. What it keeps is found by an automaton, byte by
byte; on a text in a block of its own the minifier stays inside that block if and only
if the text does not end inside a string or a comment between stars.
-/

namespace ProtobufSandbox

/-- `'/'`. -/
abbrev slash : UInt8 := 0x2F

/-- `'*'`. -/
abbrev star : UInt8 := 0x2A

/-- The blanks that are dropped. -/
def IsDropped (byte : UInt8) : Prop :=
  byte = space ∨ byte = tab ∨ byte = carriageReturn ∨ byte = newline

instance : DecidablePred IsDropped :=
  fun byte => inferInstanceAs
    (Decidable (byte = space ∨ byte = tab ∨ byte = carriageReturn ∨ byte = newline))

/-- How the minifier can fail to return. -/
inductive MinifyError where
  /-- A read or write behind the end of the block. -/
  | outOfBounds
  /-- The bound on the turns of a loop of the model is used up. -/
  | outOfFuel
  deriving DecidableEq

/-- The block of `cJSON_Minify` with its two pointers. -/
structure Minifier where
  block : Bytes
  into : Nat
  json : Nat

namespace Minifier

/-- `json[offset]`. -/
def read (minifier : Minifier) (offset : Nat) : Except MinifyError UInt8 :=
  match minifier.block[minifier.json + offset]? with
  | none => .error .outOfBounds
  | some byte => .ok byte

/-- `json += count`. -/
def advance (minifier : Minifier) (count : Nat) : Minifier :=
  { minifier with json := minifier.json + count }

/-- `*into = byte`. -/
def write (minifier : Minifier) (byte : UInt8) : Except MinifyError Minifier :=
  if minifier.into < minifier.block.length then
    .ok { minifier with block := minifier.block.set minifier.into byte }
  else .error .outOfBounds

/-- `*into++ = *json++`. -/
def copyByte (minifier : Minifier) : Except MinifyError Minifier := do
  let written ← minifier.write (← minifier.read 0)
  return { written with into := minifier.into + 1, json := minifier.json + 1 }

/-- The loop over a comment up to the end of its line. -/
def skipLine : Nat → Minifier → Except MinifyError Minifier
  | 0, _ => .error .outOfFuel
  | turns + 1, minifier => do
      let byte ← minifier.read 0
      if byte = 0 ∨ byte = newline then return minifier
      skipLine turns (minifier.advance 1)

/-- `*json == first && json[1] == second`. -/
def readsPair
    (minifier : Minifier)
    (first second : UInt8) : Except MinifyError Bool := do
  if (← minifier.read 0) = first then return (← minifier.read 1) = second
  return false

/-- The loop over a comment between stars, up to the star that ends it. -/
def skipComment : Nat → Minifier → Except MinifyError Minifier
  | 0, _ => .error .outOfFuel
  | turns + 1, minifier => do
      if (← minifier.read 0) = 0 then return minifier
      if ← minifier.readsPair star slash then return minifier
      skipComment turns (minifier.advance 1)

/-- The loop over the characters of a string. -/
def copyLiteral : Nat → Minifier → Except MinifyError Minifier
  | 0, _ => .error .outOfFuel
  | turns + 1, minifier => do
      let byte ← minifier.read 0
      if byte = 0 ∨ byte = quote then return minifier
      let minifier ← if byte = backslash then minifier.copyByte else pure minifier
      copyLiteral turns (← minifier.copyByte)

/-- One turn of the main loop, at a byte that does not end the text. -/
def turn (minifier : Minifier) (byte : UInt8) : Except MinifyError Minifier := do
  let turns := minifier.block.length + 1
  if IsDropped byte then return minifier.advance 1
  if ← minifier.readsPair slash slash then return ← skipLine turns minifier
  if ← minifier.readsPair slash star then
    return (← skipComment turns minifier).advance 2
  if byte = quote then
    let minifier ← minifier.copyByte
    return ← (← copyLiteral turns minifier).copyByte
  minifier.copyByte

/-- The main loop. -/
def loop : Nat → Minifier → Except MinifyError Minifier
  | 0, _ => .error .outOfFuel
  | turns + 1, minifier => do
      let byte ← minifier.read 0
      if byte = 0 then return minifier
      loop turns (← minifier.turn byte)

end Minifier

/-- `cJSON_Minify`: the block afterwards. -/
def minifyIn (block : Bytes) : Except MinifyError Bytes := do
  let minifier ← Minifier.loop (block.length + 1) ⟨block, 0, 0⟩
  return (← minifier.write 0).block

/-! ## What is kept -/

/-- Where in a text a byte is. -/
inductive Place where
  | outside
  | line
  | comment
  | closing
  | string
  | escaped

/-- What is kept of a text from a place in it on, unless it ends inside a string or
a comment between stars. -/
def minifiedFrom : Place → Bytes → Option Bytes
  | .outside, [] | .line, [] => some []
  | .comment, [] | .closing, [] | .string, [] | .escaped, [] => none
  | .outside, byte :: text =>
      if IsDropped byte then minifiedFrom .outside text
      else if byte = slash ∧ text.head? = some slash then minifiedFrom .line text
      else if byte = slash ∧ text.head? = some star then minifiedFrom .comment text
      else if byte = quote then (byte :: ·) <$> minifiedFrom .string text
      else (byte :: ·) <$> minifiedFrom .outside text
  | .line, byte :: text =>
      if byte = newline then minifiedFrom .outside text else minifiedFrom .line text
  | .comment, byte :: text =>
      if byte = star ∧ text.head? = some slash then minifiedFrom .closing text
      else minifiedFrom .comment text
  | .closing, _ :: text => minifiedFrom .outside text
  | .string, byte :: text =>
      if byte = quote then (byte :: ·) <$> minifiedFrom .outside text
      else if byte = backslash then (byte :: ·) <$> minifiedFrom .escaped text
      else (byte :: ·) <$> minifiedFrom .string text
  | .escaped, byte :: text => (byte :: ·) <$> minifiedFrom .string text

/-- What is kept of a text. -/
def minified (text : Bytes) : Option Bytes :=
  minifiedFrom .outside text

/-- What is kept of a text is a part of it. -/
theorem minifiedFrom_sublist
    (place : Place)
    (text : Bytes) :
    ∀ out ∈ minifiedFrom place text, out.Sublist text := by
  fun_induction minifiedFrom place text with
  | case1 => rintro _ ⟨⟩; exact .refl _
  | case2 => rintro _ ⟨⟩; exact .refl _
  | case3 | case4 | case5 | case6 => rintro _ ⟨⟩
  | case7 | case8 | case9 | case12 | case13 | case14 | case15 | case16 =>
      rename_i inductionHypothesis
      exact fun out kept => (inductionHypothesis out kept).cons _
  | case10 | case11 | case17 | case18 | case19 | case20 =>
      rename_i inductionHypothesis
      intro _ kept
      obtain ⟨out, rest, rfl⟩ := Option.map_eq_some_iff.mp kept
      exact (inductionHypothesis out rest).cons_cons _

/-! ## The block while it is minified -/

namespace Minifier

section Block

variable {minifier : Minifier} {size : Nat} {written unread : Bytes} {byte : UInt8}

/-- A block of this size holds what is written, then bytes that are not needed any
more, then what is to be read. -/
def At (minifier : Minifier) (size : Nat) (written unread : Bytes) : Prop :=
  ∃ gap, minifier.block = written ++ (gap ++ unread) ∧
    minifier.into = written.length ∧ minifier.json = written.length + gap.length ∧
    minifier.json + unread.length = size

theorem At.read
    (place : minifier.At size written unread)
    (offset : Nat) :
    minifier.read offset =
      match unread[offset]? with
      | none => .error .outOfBounds
      | some byte => .ok byte := by
  obtain ⟨gap, block, into, json, -⟩ := place
  rw [Minifier.read, block, json, ← List.append_assoc,
    List.getElem?_append_right (by rw [List.length_append]; omega), List.length_append,
    Nat.add_sub_cancel_left]

theorem At.advance (place : minifier.At size written (byte :: unread)) :
    (minifier.advance 1).At size written unread := by
  obtain ⟨gap, block, into, json, fits⟩ := place
  refine ⟨gap ++ [byte], ?_, into, ?_, ?_⟩
  · rw [List.append_assoc]
    exact block
  · rw [Minifier.advance, json, List.length_append, List.length_singleton, Nat.add_assoc]
  · rw [List.length_cons] at fits
    change minifier.json + 1 + _ = _
    omega

theorem At.write
    (place : minifier.At size written (byte :: unread))
    (new : UInt8) :
    ∃ gap, minifier.write new =
        .ok { minifier with block := written ++ (new :: (gap ++ unread)) } ∧
      minifier.json = written.length + gap.length := by
  obtain ⟨gap, block, into, json, -⟩ := place
  have inside : minifier.into < minifier.block.length := by
    rw [block, into]
    simp only [List.length_append, List.length_cons]
    omega
  refine ⟨(gap ++ [byte]).tail, ?_, ?_⟩
  · rw [Minifier.write, if_pos inside, block, into, List.set_append_right _ _ le_rfl,
      Nat.sub_self]
    cases gap with
    | nil => rfl
    | cons first gap => simp
  · rw [json, List.length_tail, List.length_append, List.length_singleton,
      Nat.add_sub_cancel]

theorem At.copyByte (place : minifier.At size written (byte :: unread)) :
    ∃ after, minifier.copyByte = .ok after ∧ after.At size (written ++ [byte]) unread := by
  obtain ⟨gap, wrote, json⟩ := place.write byte
  refine ⟨_, by rw [Minifier.copyByte, place.read, List.getElem?_cons_zero,
    Outcome.ok_bind, wrote, Outcome.ok_bind]; rfl, gap, ?_, ?_, ?_, ?_⟩
  · rw [List.append_assoc]
    rfl
  · obtain ⟨_, -, into, -⟩ := place
    rw [into, List.length_append, List.length_singleton]
  · change minifier.json + 1 = _
    rw [json, List.length_append, List.length_singleton]
    omega
  · obtain ⟨_, -, -, -, fits⟩ := place
    change minifier.json + 1 + _ = _
    rw [← fits, List.length_cons]
    omega

theorem At.length_le (place : minifier.At size written unread) :
    unread.length ≤ minifier.block.length := by
  obtain ⟨gap, block, -, -⟩ := place
  rw [block, List.length_append, List.length_append]
  omega

theorem At.read_zero (place : minifier.At size written (byte :: unread)) :
    minifier.read 0 = .ok byte :=
  place.read 0

/-- A pair of bytes is looked for in a text that is not read up to its end. -/
theorem At.readsPair
    {text slack : Bytes}
    (place : minifier.At size written (byte :: (text ++ 0 :: slack)))
    (first : UInt8)
    {second : UInt8}
    (visible : second ≠ 0) :
    minifier.readsPair first second =
      .ok (decide (byte = first ∧ text.head? = some second)) := by
  rw [Minifier.readsPair, place.read_zero, place.read, Outcome.ok_bind]
  by_cases same : byte = first
  · rw [if_pos same]
    cases text with
    | nil => simp [same, visible.symm]
    | cons next text => simp [same]
  · rw [if_neg same]
    simp only [same, false_and, decide_false]
    rfl

end Block

/-! ## The loops -/

section Loops

variable {minifier : Minifier} {size : Nat} {written slack : Bytes} {turns : Nat}

theorem skipLine_spec
    {text : Bytes}
    (terminated : (0 : UInt8) ∉ text)
    (enough : text.length < turns)
    (place : minifier.At size written (text ++ 0 :: slack)) :
    ∃ after rest, skipLine turns minifier = .ok after ∧
      after.At size written (rest ++ 0 :: slack) ∧ rest <:+ text ∧
      minifiedFrom .line text = minifiedFrom .outside rest := by
  induction turns generalizing minifier text with
  | zero => omega
  | succ turns inductionHypothesis =>
      rw [skipLine]
      cases text with
      | nil =>
          rw [At.read_zero place]
          exact ⟨minifier, [], rfl, place, List.suffix_rfl, rfl⟩
      | cons byte text =>
          rw [At.read_zero place, Outcome.ok_bind]
          obtain ⟨present, terminated⟩ := List.ne_and_not_mem_of_not_mem_cons terminated
          by_cases ends : byte = newline
          · refine ⟨minifier, byte :: text, if_pos (.inr ends), place, List.suffix_rfl, ?_⟩
            rw [minifiedFrom, minifiedFrom, if_pos ends, if_pos (by simp [IsDropped, ends])]
          · obtain ⟨after, rest, ran, there, behind, same⟩ :=
              inductionHypothesis terminated (Nat.lt_of_succ_lt_succ enough) place.advance
            refine ⟨after, rest, ?_, there, behind.trans (List.suffix_cons _ _), ?_⟩
            · rw [if_neg (not_or_intro present.symm ends), ran]
            · rw [minifiedFrom, if_neg ends, same]

/-- A comment between stars is passed over up to its end, or the text ends inside. -/
theorem skipComment_spec
    {text : Bytes}
    (terminated : (0 : UInt8) ∉ text)
    (enough : text.length < turns)
    (place : minifier.At size written (text ++ 0 :: slack)) :
    ∃ after, skipComment turns minifier = .ok after ∧
      ((∃ rest, after.At size written (star :: slash :: (rest ++ 0 :: slack)) ∧
          rest <:+ text ∧ rest.length + 2 ≤ text.length ∧
          minifiedFrom .comment text = minifiedFrom .outside rest) ∨
        (after.At size written (0 :: slack) ∧ minifiedFrom .comment text = none)) := by
  induction turns generalizing minifier text with
  | zero => omega
  | succ turns inductionHypothesis =>
      rw [skipComment]
      cases text with
      | nil =>
          rw [At.read_zero place]
          exact ⟨minifier, rfl, .inr ⟨place, rfl⟩⟩
      | cons byte text =>
          obtain ⟨present, terminated⟩ := List.ne_and_not_mem_of_not_mem_cons terminated
          rw [At.read_zero place, Outcome.ok_bind, if_neg present.symm,
            At.readsPair place star (by decide), Outcome.ok_bind, minifiedFrom]
          by_cases ends : byte = star ∧ text.head? = some slash
          · obtain ⟨rfl, next⟩ := ends
            obtain ⟨rest, rfl⟩ := List.head?_eq_some_iff.mp next
            refine ⟨minifier, rfl, .inl ⟨rest, place, ?_, le_rfl, ?_⟩⟩
            · exact (List.suffix_cons _ _).trans (List.suffix_cons _ _)
            · simp [minifiedFrom]
          · obtain ⟨after, ran, outcome⟩ :=
              inductionHypothesis terminated (Nat.lt_of_succ_lt_succ enough) place.advance
            refine ⟨after, ?_, ?_⟩
            · simp only [ends, decide_false, Bool.false_eq_true, if_false, ran]
            · rw [if_neg ends]
              refine outcome.imp_left fun ⟨rest, there, behind, shorter, same⟩ =>
                ⟨rest, there, behind.trans (List.suffix_cons _ _), ?_, same⟩
              exact Nat.le_succ_of_le shorter

/-- What the loop over the characters of a string does: it copies them up to the quote
behind them, or the text ends before. -/
def CopiesLiteral
    (size : Nat)
    (slack written text : Bytes)
    (outcome : Except MinifyError Minifier) : Prop :=
  (∃ after chars rest, outcome = .ok after ∧
      after.At size (written ++ chars) (quote :: (rest ++ 0 :: slack)) ∧
      rest <:+ text ∧ rest.length < text.length ∧
      minifiedFrom .string text =
        (fun out => chars ++ quote :: out) <$> minifiedFrom .outside rest) ∨
    (minifiedFrom .string text = none ∧
      (slack = [] → outcome = .error .outOfBounds ∨
        ∃ after copied, outcome = .ok after ∧ after.At size copied [0]))

/-- Characters are copied in front of those that the loop copies. -/
theorem CopiesLiteral.prepend
    {text behind chars : Bytes}
    {outcome : Except MinifyError Minifier}
    (copies : CopiesLiteral size slack (written ++ chars) text outcome)
    (later : text <:+ behind)
    (same : minifiedFrom .string behind =
      (fun out => chars ++ out) <$> minifiedFrom .string text) :
    CopiesLiteral size slack written behind outcome := by
  rcases copies with ⟨after, copied, rest, ran, there, isRest, shorter, kept⟩ | ⟨ends, outside⟩
  · refine .inl ⟨after, chars ++ copied, rest, ran, ?_, isRest.trans later,
      Nat.lt_of_lt_of_le shorter later.length_le, ?_⟩
    · rw [← List.append_assoc]
      exact there
    · rw [same, kept]
      cases minifiedFrom .outside rest with
      | none => rfl
      | some out => simp
  · refine .inr ⟨?_, outside⟩
    rw [same, ends]
    rfl

theorem copyLiteral_spec
    {text : Bytes}
    (terminated : (0 : UInt8) ∉ text)
    (enough : text.length < turns)
    (place : minifier.At size written (text ++ 0 :: slack)) :
    CopiesLiteral size slack written text (copyLiteral turns minifier) := by
  induction turns generalizing minifier written text with
  | zero => omega
  | succ turns inductionHypothesis =>
      rw [copyLiteral]
      cases text with
      | nil =>
          rw [At.read_zero place]
          refine .inr ⟨rfl, ?_⟩
          rintro rfl
          exact .inr ⟨minifier, written, rfl, place⟩
      | cons byte text =>
          obtain ⟨present, terminated⟩ := List.ne_and_not_mem_of_not_mem_cons terminated
          rw [At.read_zero place, Outcome.ok_bind]
          by_cases ends : byte = quote
          · subst ends
            refine .inl ⟨minifier, [], text, if_pos (.inr rfl), ?_, List.suffix_cons _ _,
              Nat.lt_succ_self _, ?_⟩
            · rw [List.append_nil]
              exact place
            · rw [minifiedFrom, if_pos rfl]
              rfl
          rw [if_neg (not_or_intro present.symm ends)]
          have shorter : text.length < turns := Nat.lt_of_succ_lt_succ enough
          obtain ⟨first, copied, place⟩ := At.copyByte place
          by_cases escape : byte = backslash
          · rw [if_pos escape, copied, Outcome.ok_bind]
            dsimp only
            cases text with
            | nil =>
                obtain ⟨second, copied, place⟩ := At.copyByte place
                refine .inr ⟨by rw [minifiedFrom, if_neg ends, if_pos escape]; rfl, ?_⟩
                rintro rfl
                obtain ⟨turns, rfl⟩ := Nat.exists_eq_add_of_lt shorter
                left
                rw [copied, Outcome.ok_bind, copyLiteral, At.read place]
                rfl
            | cons next text =>
                obtain ⟨second, copied, place⟩ := At.copyByte place
                obtain ⟨-, terminated⟩ := List.ne_and_not_mem_of_not_mem_cons terminated
                rw [copied, Outcome.ok_bind]
                have copies := inductionHypothesis terminated
                  (Nat.lt_of_succ_lt shorter) place
                rw [List.append_assoc] at copies
                refine copies.prepend
                  ((List.suffix_cons _ _).trans (List.suffix_cons _ _)) ?_
                rw [minifiedFrom, if_neg ends, if_pos escape, minifiedFrom]
                cases minifiedFrom .string text <;> rfl
          · rw [if_neg escape]
            have copies := inductionHypothesis terminated shorter place
            have joined := copies.prepend (List.suffix_cons byte text) (by
              rw [minifiedFrom, if_neg ends, if_neg escape]
              rfl)
            change CopiesLiteral _ _ _ _ (minifier.copyByte >>= fun minifier => _)
            rw [copied]
            exact joined

/-- What a turn of the main loop does where this is kept of the text: it comes to a
place outside of strings and comments, or the text ends before. -/
def Turns
    (size : Nat)
    (slack written text : Bytes)
    (kept : Option Bytes)
    (outcome : Except MinifyError Minifier) : Prop :=
  (∃ after out rest, outcome = .ok after ∧ after.At size (written ++ out) (rest ++ 0 :: slack) ∧
      rest <:+ text ∧ kept = (out ++ ·) <$> minifiedFrom .outside rest) ∨
    (kept = none ∧
      (slack = [] → outcome = .error .outOfBounds ∨
        ∃ after, outcome = .ok after ∧ after.read 0 = .error .outOfBounds))

/-- What a turn passes over without a write. -/
theorem turns_of_passed
    {text rest : Bytes}
    {after : Minifier}
    (place : after.At size written (rest ++ 0 :: slack))
    (behind : rest <:+ text) :
    Turns size slack written text (minifiedFrom .outside rest) (.ok after) := by
  refine .inl ⟨after, [], rest, rfl, ?_, behind, ?_⟩
  · rw [List.append_nil]
    exact place
  · exact (Option.map_id' (x := minifiedFrom .outside rest)).symm

/-- A comment up to the end of its line is passed over. -/
theorem turns_of_line
    {text : Bytes}
    (terminated : (0 : UInt8) ∉ text)
    (place : minifier.At size written (slash :: (text ++ 0 :: slack)))
    (enough : text.length < turns) :
    Turns size slack written text (minifiedFrom .line text) (skipLine (turns + 1) minifier) := by
  rw [skipLine, place.read_zero, Outcome.ok_bind, if_neg (by decide)]
  obtain ⟨after, rest, ran, there, behind, same⟩ :=
    skipLine_spec terminated enough place.advance
  rw [ran, same]
  exact turns_of_passed there behind

/-- A comment between stars is passed over with its end. -/
theorem turns_of_comment
    {text : Bytes}
    (terminated : (0 : UInt8) ∉ text)
    (place : minifier.At size written (slash :: (text ++ 0 :: slack)))
    (enough : text.length < turns) :
    Turns size slack written text (minifiedFrom .comment text)
      (do return (← skipComment (turns + 1) minifier).advance 2) := by
  rw [skipComment, place.read_zero, Outcome.ok_bind, if_neg (by decide),
    place.readsPair star (by decide), Outcome.ok_bind,
    if_neg (by simp only [decide_eq_true_eq]; exact fun comment => absurd comment.1 (by decide))]
  obtain ⟨after, ran, ⟨rest, there, behind, -, same⟩ | ⟨there, ends⟩⟩ :=
    skipComment_spec terminated enough place.advance
  · rw [ran, same]
    exact turns_of_passed there.advance.advance behind
  · rw [ran]
    refine .inr ⟨ends, ?_⟩
    rintro rfl
    exact .inr ⟨_, rfl, there.read 2⟩

/-- A string is copied with its quotes. -/
theorem turns_of_literal
    {text : Bytes}
    (terminated : (0 : UInt8) ∉ text)
    (place : minifier.At size (written ++ [quote]) (text ++ 0 :: slack))
    (enough : text.length < turns) :
    Turns size slack written text ((quote :: ·) <$> minifiedFrom .string text)
      (do (← copyLiteral turns minifier).copyByte) := by
  rcases copyLiteral_spec terminated enough place with
    ⟨after, chars, rest, ran, there, behind, -, same⟩ | ⟨ends, outside⟩
  · obtain ⟨final, copied, there⟩ := there.copyByte
    refine .inl ⟨final, quote :: (chars ++ [quote]), rest, ?_, ?_, behind, ?_⟩
    · rw [ran, Outcome.ok_bind, copied]
    · simpa using there
    · rw [same]
      cases minifiedFrom .outside rest <;> simp
  · refine .inr ⟨by rw [ends]; rfl, fun exact => ?_⟩
    rcases outside exact with failed | ⟨after, copied, ran, there⟩
    · rw [failed]
      exact .inl rfl
    · obtain ⟨final, copied, there⟩ := there.copyByte
      refine .inr ⟨final, ?_, there.read 0⟩
      rw [ran, Outcome.ok_bind, copied]

theorem turn_spec
    {byte : UInt8}
    {text : Bytes}
    (terminated : (0 : UInt8) ∉ byte :: text)
    (place : minifier.At size written (byte :: (text ++ 0 :: slack))) :
    Turns size slack written text (minified (byte :: text)) (minifier.turn byte) := by
  have behind := (List.ne_and_not_mem_of_not_mem_cons terminated).2
  have enough : text.length < minifier.block.length := by
    have fits := place.length_le
    simp only [List.length_cons, List.length_append] at fits
    omega
  rw [turn, minified, minifiedFrom]
  by_cases blank : IsDropped byte
  · rw [if_pos blank, if_pos blank]
    exact turns_of_passed place.advance List.suffix_rfl
  rw [if_neg blank, if_neg blank, place.readsPair slash (by decide), Outcome.ok_bind,
    place.readsPair slash (by decide), Outcome.ok_bind]
  simp only [decide_eq_true_eq]
  by_cases line : byte = slash ∧ text.head? = some slash
  · rw [if_pos line, if_pos line]
    exact turns_of_line behind (line.1 ▸ place) enough
  rw [if_neg line, if_neg line]
  by_cases comment : byte = slash ∧ text.head? = some star
  · rw [if_pos comment, if_pos comment]
    exact turns_of_comment behind (comment.1 ▸ place) enough
  rw [if_neg comment, if_neg comment]
  obtain ⟨first, copied, place⟩ := place.copyByte
  rw [copied]
  by_cases literal : byte = quote
  · subst literal
    rw [if_pos rfl, if_pos rfl, Outcome.ok_bind]
    exact turns_of_literal behind place (Nat.lt_succ_of_lt enough)
  · rw [if_neg literal, if_neg literal]
    exact .inl ⟨first, [byte], text, rfl, place, List.suffix_rfl, rfl⟩

/-- The main loop ends with what is kept of the text, or it reads behind its block. -/
theorem loop_spec
    {text : Bytes}
    (terminated : (0 : UInt8) ∉ text)
    (enough : text.length < turns)
    (place : minifier.At size written (text ++ 0 :: slack)) :
    (∃ after out, loop turns minifier = .ok after ∧
        after.At size (written ++ out) (0 :: slack) ∧ minified text = some out) ∨
      (minified text = none ∧
        (slack = [] → loop turns minifier = .error .outOfBounds)) := by
  induction turns generalizing minifier written text with
  | zero => omega
  | succ turns inductionHypothesis =>
      rw [loop]
      cases text with
      | nil =>
          rw [At.read_zero place]
          refine .inl ⟨minifier, [], rfl, ?_, rfl⟩
          rw [List.append_nil]
          exact place
      | cons byte text =>
          obtain ⟨present, later⟩ := List.ne_and_not_mem_of_not_mem_cons terminated
          rw [At.read_zero place, Outcome.ok_bind, if_neg present.symm]
          rcases turn_spec terminated place with
            ⟨after, first, rest, ran, there, behind, kept⟩ | ⟨ends, outside⟩
          · rw [ran, Outcome.ok_bind]
            have shorter : rest.length < turns :=
              Nat.lt_of_le_of_lt behind.length_le (Nat.lt_of_succ_lt_succ enough)
            rcases inductionHypothesis (fun found => later (behind.subset found)) shorter
                there with ⟨final, out, ran, there, same⟩ | ⟨ends, outside⟩
            · refine .inl ⟨final, first ++ out, ran, ?_, ?_⟩
              · rw [← List.append_assoc]
                exact there
              · rw [kept, ← minified, same]
                rfl
            · refine .inr ⟨?_, outside⟩
              rw [kept, ← minified, ends]
              rfl
          · refine .inr ⟨ends, fun exact => ?_⟩
            rcases outside exact with failed | ⟨after, ran, failed⟩
            · rw [failed]
              rfl
            · rw [ran, Outcome.ok_bind]
              cases turns with
              | zero => simp at enough
              | succ turns =>
                  rw [loop, failed]
                  rfl

end Loops


end Minifier

/-- `cJSON_Minify` leaves the text in its block what is kept of it, and changes nothing
behind the text; on a text in a block of its own that ends inside a string or a comment
between stars, and on no other one, it reads behind the block. -/
theorem minifyIn_run
    (text : CString)
    (slack : Bytes) :
    (∃ out stale, minified text.val = some out ∧ (0 : UInt8) ∉ out ∧
        out.length + stale.length = text.val.length ∧
        minifyIn (text.val ++ 0 :: slack) = .ok (out ++ 0 :: (stale ++ slack))) ∨
      (minified text.val = none ∧ minifyIn (text.val ++ [0]) = .error .outOfBounds) := by
  have start (slack : Bytes) :
      (⟨text.val ++ 0 :: slack, 0, 0⟩ : Minifier).At (text.val ++ 0 :: slack).length []
        (text.val ++ 0 :: slack) :=
    ⟨[], rfl, rfl, rfl, Nat.zero_add _⟩
  have enough (slack : Bytes) : text.val.length < (text.val ++ 0 :: slack).length + 1 := by
    rw [List.length_append]
    omega
  rcases Minifier.loop_spec text.property (enough slack) (start slack) with
    ⟨after, out, ran, there, kept⟩ | ⟨ends, -⟩
  · obtain ⟨stale, wrote, json⟩ := there.write 0
    refine .inl ⟨out, stale, kept, ?_, ?_, ?_⟩
    · exact fun found => text.property ((minifiedFrom_sublist _ _ out kept).subset found)
    · obtain ⟨_, -, -, -, fits⟩ := there
      simp only [json, List.nil_append, List.length_append] at fits
      exact Nat.add_right_cancel fits
    · rw [minifyIn, ran, Outcome.ok_bind, wrote]
      rfl
  · refine .inr ⟨ends, ?_⟩
    rcases Minifier.loop_spec text.property (enough []) (start []) with
      ⟨after, out, -, -, kept⟩ | ⟨-, outside⟩
    · rw [ends] at kept
      cases kept
    · rw [minifyIn, outside rfl]
      rfl

end ProtobufSandbox
