import ProtobufSandbox.Foundation.Grammar
import ProtobufSandbox.Json.Scan

/-!
# Texts that end inside a value

The grammar of the texts that the parser takes, with the texts that end too soon
for it: on those, and on no others, the parser runs out of its buffer.
-/

namespace ProtobufSandbox
namespace CJSON

open Grammar

/-! ## The grammar -/

namespace Text

/-- Blanks in front of a byte that is none. -/
def blanks : Grammar UInt8 :=
  run fun byte => byte ≠ 0 ∧ byte ≤ 32

/-- Digits in front of a byte that is none. -/
def digits : Grammar UInt8 :=
  run fun byte => Decimal.isDigit byte = true

def sign : Grammar UInt8 :=
  optional (· = minus)

/-- The digits in front of the point. Behind a leading zero they begin with
another digit. -/
def whole : Grammar UInt8 :=
  seq (optional (· = zeroDigit))
    (branch 0 (fun byte => zeroDigit < byte ∧ byte ≤ 57) digits empty)

/-- A point is part of a number if a digit is behind it. -/
def fraction : Grammar UInt8 :=
  branch 0 (· = point)
    (branch 1 (fun byte => Decimal.isDigit byte = true) (after 1 digits) empty)
    empty

/-- The digits of an exponent may be missing. -/
def exponent : Grammar UInt8 :=
  branch 0
    (fun byte => byte = UInt8.ofNat 'e'.toNat ∨ byte = UInt8.ofNat 'E'.toNat)
    (after 1 (seq
      (optional fun byte => byte = UInt8.ofNat '+'.toNat ∨ byte = minus) digits))
    empty

/-- A number ends in front of a byte that does not continue it. -/
def number : Grammar UInt8 :=
  seq sign (seq whole (seq fraction exponent))

/-- A byte that does not end a string. -/
def Continues (byte : UInt8) : Prop :=
  ¬ (byte = quote ∨ byte = 0)

instance : DecidablePred Continues :=
  fun byte => inferInstanceAs (Decidable (¬ (byte = quote ∨ byte = 0)))

/-- The characters of a string as they are counted: the byte behind a backslash
does not end them. -/
def counted : Grammar UInt8 :=
  loop Continues
    (branch 0 (· = backslash) (after 2 empty) (after 1 empty))

/-- Hexadecimal digits, or fewer in front of another byte. -/
def hexDigits : Nat → Grammar UInt8
  | 0 => empty
  | count + 1 =>
      branch 0 (fun byte => hexDigit? byte ≠ none) (after 1 (hexDigits count)) empty

/-- Four hexadecimal digits between `D800` and `DBFF`. -/
def IsHighSurrogate : Bytes → Prop
  | first :: second :: third :: fourth :: _ =>
      hexDigit? first = some 13 ∧
        (∃ digit, hexDigit? second = some digit ∧ 8 ≤ digit ∧ digit ≤ 11) ∧
        hexDigit? third ≠ none ∧ hexDigit? fourth ≠ none
  | _ => False

/-- The first half of a surrogate pair, up to its last byte, with the second half
if there is an escape of one behind it. -/
def surrogate : Grammar UInt8 :=
  branch 5 (· = backslash)
    (branch 6 (· = UInt8.ofNat 'u'.toNat)
      (ahead (after 7 (hexDigits 4)) (after 10 empty))
      (after 4 empty))
    (after 4 empty)

/-- What is behind the backslash of an escape of four digits, up to the last
byte. Four bytes are passed over, digits or not. -/
def unicode : Grammar UInt8 :=
  ahead (after 1 (hexDigits 4)) fun text result =>
    (IsHighSurrogate (text.drop 1) ∧ surrogate text result) ∨
      (¬ IsHighSurrogate (text.drop 1) ∧ after 4 empty text result)

/-- What is behind a backslash, up to the last byte. -/
def escaped : Grammar UInt8 :=
  branch 0 (· = UInt8.ofNat 'u'.toNat) unicode empty

/-- The characters of a string as they are copied. -/
def characters : Grammar UInt8 :=
  loop Continues
    (branch 0 (· = backslash)
      (after 1 (seq escaped (after 1 empty))) (after 1 empty))

/-- A string. It is read twice: it has to end when it is counted as well. -/
def string : Grammar UInt8 :=
  branch 0 (· = quote)
    (after 1 (ahead counted (seq characters (optional (· = quote))))) never

/-- Entries between brackets, separated by commas. -/
def container (opening closing : UInt8) (entry : Grammar UInt8) : Grammar UInt8 :=
  let ending := branch 0 (· = closing) (after 1 empty) never
  branch 0 (· = opening)
    (after 1 (seq blanks
      (branch 0 (· = closing) (after 1 empty)
        (seq entry (seq (loop (· = comma) (after 1 entry)) ending)))))
    never

def element (value : Grammar UInt8) : Grammar UInt8 :=
  seq blanks (seq value blanks)

def member (value : Grammar UInt8) : Grammar UInt8 :=
  seq blanks (seq string (seq blanks
    (branch 0 (· = colon) (after 1 (seq blanks (seq value blanks))) never)))

/-- Values, from the values inside them. -/
def valueFrom (value : Grammar UInt8) : Grammar UInt8 :=
  word (ascii ['n', 'u', 'l', 'l'])
    (word (ascii ['f', 'a', 'l', 's', 'e'])
      (word (ascii ['t', 'r', 'u', 'e'])
        (branch 0 (· = quote) string
          (branch 0 (fun byte => byte = minus ∨ Decimal.isDigit byte = true) number
            (branch 0 (· = openBracket)
              (container openBracket closeBracket (element value))
              (branch 0 (· = openBrace)
                (container openBrace closeBrace (member value)) never))))))

theorem element_mono : Monotone element :=
  fun _ _ le => seq_mono le_rfl (seq_mono le le_rfl)

theorem member_mono : Monotone member :=
  fun _ _ le => seq_mono le_rfl (seq_mono le_rfl (seq_mono le_rfl
    (branch_mono (after_mono 1 (seq_mono le_rfl (seq_mono le le_rfl))) le_rfl)))

theorem container_mono (opening closing : UInt8) :
    Monotone (container opening closing) :=
  fun _ _ le => branch_mono (after_mono 1 (seq_mono le_rfl (branch_mono le_rfl
    (seq_mono le (seq_mono (loop_mono (after_mono 1 le)) le_rfl))))) le_rfl

theorem valueFrom_mono : Monotone valueFrom :=
  fun _ _ le => word_mono _ (word_mono _ (word_mono _ (branch_mono le_rfl
    (branch_mono le_rfl (branch_mono (container_mono _ _ (element_mono le))
      (branch_mono (container_mono _ _ (member_mono le)) le_rfl))))))

/-- The values, nested to any depth. -/
def value : Grammar UInt8 :=
  least valueFrom valueFrom_mono

theorem value_eq : value = valueFrom value :=
  least_eq valueFrom_mono

/-- A value behind blanks, and whatever is behind it. -/
def document : Grammar UInt8 :=
  seq blanks value

end Text

/-- The text ends before the value that it begins with does. A number at its end
is such a value, and so is no value at all. -/
def EndsInside (text : Bytes) : Prop :=
  Text.document text none

/-! ## What the parts read -/

/-- The outcome of a part of the parser says what a grammar says of the text,
with a read behind the end where the text ends. -/
abbrev Reads
    (rest : α → Bytes)
    (phrase : Option Bytes → Prop)
    (outcome : Except ParseError α) : Prop :=
  Decides (· = ParseError.outOfBounds) rest phrase outcome

theorem peek_readsAt (index : Nat) (text : Bytes) :
    ReadsAt (· = ParseError.outOfBounds) index text (peek (text.drop index)) := by
  rw [ReadsAt, ← List.head?_drop]
  cases text.drop index with
  | nil => exact ⟨_, rfl, rfl⟩
  | cons byte rest => rfl

theorem malformed_reads
    {rest : α → Bytes}
    (text ep : Bytes) :
    Reads rest (never text) (.error (.malformed ep)) := by
  intro result
  constructor
  · exact False.elim
  · rintro ⟨-, ⟨⟩⟩

theorem skip_reads (text : Bytes) :
    Reads id (Text.blanks text) (skip text) := by
  induction text with
  | nil => exact fun result => run_nil.trans (and_iff_left rfl).symm
  | cons byte text inductionHypothesis =>
      rw [skip]
      refine Decides.split (fun blank => ?_) (fun visible => ?_)
      · exact inductionHypothesis.congr fun _ => run_cons_of_pos blank
      · exact fun result => run_cons_of_neg visible

/-! ### Numbers -/

theorem readDigits_reads
    {R : Type}
    [Semiring R]
    (n : R)
    (num : Bytes) :
    Reads (fun result => result.2.2) (Text.digits num) (readDigits n num) := by
  induction num generalizing n with
  | nil => exact fun result => run_nil.trans (and_iff_left rfl).symm
  | cons byte num inductionHypothesis =>
      rw [readDigits]
      refine Decides.split (fun digit => ?_) (fun other => ?_)
      · refine Decides.congr ?_ fun _ => run_cons_of_pos digit
        exact (inductionHypothesis (Decimal.extend n byte)).bind_ok fun _ => rfl
      · exact fun result => run_cons_of_neg other

theorem readSign_reads (num : Bytes) :
    Reads Prod.snd (Text.sign num) (readSign num) :=
  Decides.branch (peek_readsAt 0 num) fun _ found =>
    Decides.ite found (fun _ _ => Iff.rfl) (fun _ _ => Iff.rfl)

theorem readWhole_reads (num : Bytes) :
    Reads Prod.snd (Text.whole num) (readWhole num) := by
  refine Decides.optional (peek_readsAt 0 num) fun byte _ => ?_
  refine Decides.branch (peek_readsAt 0 _) fun next found => ?_
  refine Decides.ite found (fun _ => ?_) (fun _ _ => Iff.rfl)
  exact (readDigits_reads 0 _).bind_ok fun _ => rfl

theorem readFraction_reads
    (n : Rat)
    (num : Bytes) :
    Reads (fun result => result.2.2) (Text.fraction num) (readFraction n num) := by
  refine Decides.branch (peek_readsAt 0 num) fun byte found => ?_
  refine Decides.ite found (fun _ => ?_) (fun _ _ => Iff.rfl)
  refine Decides.branch (peek_readsAt 1 num) fun next found => ?_
  refine Decides.ite found (fun _ => ?_) (fun _ _ => Iff.rfl)
  exact readDigits_reads n (num.drop 1)

theorem readExponent_reads (num : Bytes) :
    Reads Prod.snd (Text.exponent num) (readExponent num) := by
  refine Decides.branch (peek_readsAt 0 num) fun byte found => ?_
  refine Decides.ite found (fun _ => ?_) (fun _ _ => Iff.rfl)
  refine Decides.optional (peek_readsAt 0 (num.drop 1)) fun sign _ => ?_
  exact (readDigits_reads (0 : Int) _).bind_ok fun _ => rfl

theorem parseNumber_reads
    (item : CJSON)
    (num : Bytes) :
    Reads Prod.snd (Text.number num) (parseNumber item num) :=
  (readSign_reads num).bind fun _ _ =>
    (readWhole_reads _).bind fun _ _ =>
      (readFraction_reads _ _).bind fun _ _ =>
        (readExponent_reads _).bind_ok fun _ => rfl

/-! ### Strings -/

theorem counted_backslash
    {text : Bytes}
    {result : Option Bytes} :
    Text.counted (backslash :: text) result ↔
      Text.counted (text.drop 1) result := by
  refine (loop_cons_of_pos (by decide)).trans ?_
  exact Iff.trans (seq_branch_of_pos rfl rfl) seq_after_empty

theorem counted_plain
    {byte : UInt8}
    {text : Bytes}
    {result : Option Bytes}
    (stays : Text.Continues byte)
    (plain : byte ≠ backslash) :
    Text.counted (byte :: text) result ↔ Text.counted text result := by
  refine (loop_cons_of_pos stays).trans ?_
  exact Iff.trans (seq_branch_of_neg rfl plain) seq_after_empty

/-- The first loop of `parse_string` counts the characters up to some place. -/
theorem measure_reads (text : Bytes) :
    ∃ rest, Reads (fun _ => rest) (Text.counted text) (measure text) := by
  fun_induction measure text with
  | case1 =>
      exact ⟨[], fun result => loop_nil.trans (and_iff_left rfl).symm⟩
  | case2 byte ptr terminator =>
      exact ⟨byte :: ptr, fun result => loop_cons_of_neg (not_not.mpr terminator)⟩
  | case3 =>
      refine ⟨[], fun result => counted_backslash.trans ?_⟩
      exact loop_nil.trans (and_iff_left rfl).symm
  | case4 _ _ _ inductionHypothesis =>
      obtain ⟨rest, reads⟩ := inductionHypothesis
      exact ⟨rest, (reads.congr fun _ => counted_backslash).map⟩
  | case5 _ _ stays plain inductionHypothesis =>
      obtain ⟨rest, reads⟩ := inductionHypothesis
      exact ⟨rest, (reads.congr fun _ => counted_plain stays plain).map⟩

/-- The digits are read up to some place. -/
theorem readHex_reads
    (count : Nat)
    (h : UInt32)
    (text : Bytes) :
    ∃ rest, Reads (fun _ => rest) (Text.hexDigits count text)
      (readHex count h text) := by
  induction count generalizing h text with
  | zero => exact ⟨text, fun _ => Iff.rfl⟩
  | succ count inductionHypothesis =>
      cases text with
      | nil =>
          refine ⟨[], fun result => ?_⟩
          exact (branch_of_eq_none rfl).trans (and_iff_left rfl).symm
      | cons byte text =>
          cases digit : hexDigit? byte with
          | none =>
              refine ⟨byte :: text, ?_⟩
              simp only [readHex, peek, Outcome.ok_bind, digit]
              exact fun result => branch_of_neg rfl (not_not.mpr digit)
          | some value =>
              obtain ⟨rest, reads⟩ := inductionHypothesis ((h <<< 4) + value) text
              refine ⟨rest, ?_⟩
              simp only [readHex, peek, Outcome.ok_bind, digit]
              refine reads.congr fun result => branch_of_pos rfl ?_
              exact digit ▸ Option.some_ne_none value

theorem hexDigit?_le
    {byte : UInt8}
    {digit : UInt32}
    (found : hexDigit? byte = some digit) :
    digit ≤ 15 := by
  have checked : ∀ byte, (hexDigit? byte).all (· ≤ 15) = true :=
    forall_byte (by decide)
  simpa [found] using checked byte

/-- The number that four hexadecimal digits stand for. -/
theorem toNat_hex
    {a b c d : UInt32}
    (aSmall : a ≤ 15)
    (bSmall : b ≤ 15)
    (cSmall : c ≤ 15)
    (dSmall : d ≤ 15) :
    ((((((0 : UInt32) <<< 4) + a) <<< 4 + b) <<< 4 + c) <<< 4 + d).toNat =
      ((a.toNat * 16 + b.toNat) * 16 + c.toNat) * 16 + d.toNat := by
  rw [UInt32.le_iff_toNat_le] at aSmall bSmall cSmall dSmall
  change a.toNat ≤ 15 at aSmall
  change b.toNat ≤ 15 at bSmall
  change c.toNat ≤ 15 at cSmall
  change d.toNat ≤ 15 at dSmall
  simp only [UInt32.toNat_add, UInt32.toNat_shiftLeft, Nat.shiftLeft_eq]
  simp
  omega

/-- What four hexadecimal digits are read as. -/
theorem isHighSurrogate_iff
    {first second third fourth : UInt8}
    {text : Bytes}
    {a b c d uc : UInt32}
    (firstDigit : hexDigit? first = some a)
    (secondDigit : hexDigit? second = some b)
    (thirdDigit : hexDigit? third = some c)
    (fourthDigit : hexDigit? fourth = some d)
    (read : parseHex4 (first :: second :: third :: fourth :: text) = .ok uc) :
    Text.IsHighSurrogate (first :: second :: third :: fourth :: text) ↔
      0xD800 ≤ uc ∧ uc ≤ 0xDBFF := by
  simp only [parseHex4, readHex, peek, Outcome.ok_bind, firstDigit, secondDigit,
    thirdDigit, fourthDigit, List.drop_succ_cons, List.drop_zero] at read
  have value := congrArg UInt32.toNat (Except.ok.inj read)
  rw [toNat_hex (hexDigit?_le firstDigit) (hexDigit?_le secondDigit)
    (hexDigit?_le thirdDigit) (hexDigit?_le fourthDigit)] at value
  have aSmall : a.toNat ≤ 15 := hexDigit?_le firstDigit
  have bSmall : b.toNat ≤ 15 := hexDigit?_le secondDigit
  have cSmall : c.toNat ≤ 15 := hexDigit?_le thirdDigit
  have dSmall : d.toNat ≤ 15 := hexDigit?_le fourthDigit
  have digits : Text.IsHighSurrogate (first :: second :: third :: fourth :: text) ↔
      a = 13 ∧ 8 ≤ b ∧ b ≤ 11 := by
    simp [Text.IsHighSurrogate, firstDigit, secondDigit, thirdDigit, fourthDigit]
  rw [digits, ← UInt32.toNat_inj]
  simp only [UInt32.le_iff_toNat_le, UInt32.reduceToNat]
  omega

/-- Digits are read as zero unless all of them are there. -/
theorem readHex_eq_ok
    {count : Nat}
    {h uc : UInt32}
    {text : Bytes}
    (read : readHex count h text = .ok uc) :
    uc = 0 ∨
      (count ≤ text.length ∧ ∀ byte ∈ text.take count, hexDigit? byte ≠ none) := by
  induction count generalizing h text with
  | zero =>
      exact .inr ⟨Nat.zero_le _,
        fun byte present => absurd present List.not_mem_nil⟩
  | succ count inductionHypothesis =>
      cases text with
      | nil => cases read
      | cons byte text =>
          rw [readHex, peek, Outcome.ok_bind] at read
          cases digit : hexDigit? byte with
          | none =>
              rw [digit] at read
              cases read
              exact .inl rfl
          | some value =>
              rw [digit] at read
              refine (inductionHypothesis read).imp_right fun digits => ?_
              refine ⟨Nat.succ_le_succ digits.1, ?_⟩
              rw [List.take_succ_cons, List.forall_mem_cons, digit]
              exact ⟨Option.some_ne_none value, digits.2⟩

/-- What four bytes are read as. -/
theorem parseHex4_surrogate
    {text : Bytes}
    {uc : UInt32}
    (read : parseHex4 text = .ok uc) :
    Text.IsHighSurrogate text ↔ 0xD800 ≤ uc ∧ uc ≤ 0xDBFF := by
  rcases text with _ | ⟨first, _ | ⟨second, _ | ⟨third, _ | ⟨fourth, text⟩⟩⟩⟩
  case cons.cons.cons.cons =>
    constructor
    · intro high
      obtain ⟨firstDigit, ⟨b, secondDigit, -⟩, isThird, isFourth⟩ := id high
      obtain ⟨c, thirdDigit⟩ := Option.ne_none_iff_exists'.mp isThird
      obtain ⟨d, fourthDigit⟩ := Option.ne_none_iff_exists'.mp isFourth
      exact (isHighSurrogate_iff firstDigit secondDigit thirdDigit fourthDigit
        read).mp high
    · intro high
      rcases readHex_eq_ok read with rfl | ⟨-, digits⟩
      · exact absurd high (by decide)
      · simp only [List.take_succ_cons, List.take_zero, List.forall_mem_cons]
          at digits
        obtain ⟨isFirst, isSecond, isThird, isFourth, -⟩ := digits
        obtain ⟨a, firstDigit⟩ := Option.ne_none_iff_exists'.mp isFirst
        obtain ⟨b, secondDigit⟩ := Option.ne_none_iff_exists'.mp isSecond
        obtain ⟨c, thirdDigit⟩ := Option.ne_none_iff_exists'.mp isThird
        obtain ⟨d, fourthDigit⟩ := Option.ne_none_iff_exists'.mp isFourth
        exact (isHighSurrogate_iff firstDigit secondDigit thirdDigit fourthDigit
          read).mpr high
  -- On fewer bytes the digits are not all there.
  all_goals
    refine iff_of_false id fun high => ?_
    rcases readHex_eq_ok read with rfl | ⟨enough, -⟩
    · exact absurd high (by decide)
    · simp at enough

/-- The second half of a surrogate pair is passed over if it is there. -/
theorem surrogate_reads
    {outcome : UInt32 → Except ParseError (Bytes × Bytes)}
    (ptr : Bytes)
    (passes : ∀ uc2, Reads Prod.snd (after 10 empty ptr) (outcome uc2)) :
    Reads Prod.snd (Text.surrogate ptr) (do
      if (← peek (ptr.drop 5)) ≠ backslash then return ([], ptr.drop 4)
      if (← peek (ptr.drop 6)) ≠ UInt8.ofNat 'u'.toNat then
        return ([], ptr.drop 4)
      outcome (← parseHex4 (ptr.drop 7))) := by
  simp only [ne_eq, ite_not]
  refine Decides.branch (peek_readsAt 5 ptr) fun byte found => ?_
  refine Decides.ite found (fun _ => ?_) (fun _ _ => Iff.rfl)
  refine Decides.branch (peek_readsAt 6 ptr) fun byte found => ?_
  refine Decides.ite found (fun _ => ?_) (fun _ _ => Iff.rfl)
  obtain ⟨rest, reads⟩ := readHex_reads 4 0 (ptr.drop 7)
  exact Decides.ahead reads fun uc2 _ => passes uc2

/-- What is behind a `u` is passed over as the grammar says. -/
theorem transcode_reads (ptr : Bytes) :
    Reads Prod.snd (Text.unicode ptr) (transcode ptr) := by
  obtain ⟨rest, reads⟩ := readHex_reads 4 0 (ptr.drop 1)
  refine Decides.ahead reads fun uc read => ?_
  have high := parseHex4_surrogate read
  have single (low : ¬ (0xD800 ≤ uc ∧ uc ≤ 0xDBFF)) (bytes : Bytes) :
      Reads Prod.snd
        (fun result =>
          (Text.IsHighSurrogate (ptr.drop 1) ∧ Text.surrogate ptr result) ∨
            (¬ Text.IsHighSurrogate (ptr.drop 1) ∧ after 4 empty ptr result))
        (.ok (bytes, ptr.drop 4)) := by
    intro result
    rw [high]
    simp only [low, false_and, not_false_eq_true, true_and, false_or]
    rfl
  refine Decides.split (fun noCharacter => single ?_ []) fun _ => ?_
  · rintro ⟨notBelow, notAbove⟩
    rcases noCharacter with ⟨above, -⟩ | rfl
    · exact absurd (UInt32.le_trans above notAbove) (by decide)
    · exact absurd notBelow (by decide)
  · refine Decides.split (fun isHigh => ?_) (fun low => single low _)
    simp only [List.drop_drop]
    refine (surrogate_reads ptr fun uc2 => ?_).congr fun result => ?_
    · exact Decides.split (fun _ _ => Iff.rfl) (fun _ _ => Iff.rfl)
    · simp only [high.mpr isHigh, true_and, not_true_eq_false, false_and, or_false]

theorem unescape_reads (ptr : Bytes) :
    Reads Prod.snd (Text.escaped ptr) (unescape ptr) := by
  refine Decides.branch (peek_readsAt 0 ptr) fun byte found => ?_
  iterate 5
    refine Decides.split (fun same => ?_) (fun _ => ?_)
    · exact fun result => branch_of_neg found (by rw [same]; decide)
  exact Decides.ite found (fun _ => transcode_reads ptr) (fun _ _ => Iff.rfl)

theorem escaped_le_shorter : Text.escaped ≤ shorter := by
  have passed (count : Nat) : after count empty ≤ (shorter : Grammar UInt8) :=
    after_le_shorter count empty_le_shorter
  have surrogate : Text.surrogate ≤ shorter :=
    branch_le_shorter
      (branch_le_shorter (ahead_le_shorter (passed 10)) (passed 4)) (passed 4)
  refine branch_le_shorter (ahead_le_shorter ?_) empty_le_shorter
  rintro text result (⟨-, pair⟩ | ⟨-, single⟩)
  · exact surrogate text result pair
  · exact passed 4 text result single

theorem characters_le_shorter : Text.characters ≤ shorter :=
  have passed := after_le_shorter 1 empty_le_shorter
  loop_le_shorter (branch_le_shorter
    (after_le_shorter 1 (seq_le_shorter escaped_le_shorter passed)) passed)

theorem string_le_shorter : Text.string ≤ shorter :=
  branch_le_shorter
    (after_le_shorter 1 (ahead_le_shorter
      (seq_le_shorter characters_le_shorter optional_le_shorter)))
    never_le_shorter

theorem length_drop_one
    {text : Bytes}
    {byte : UInt8}
    (found : text[0]? = some byte) :
    (text.drop 1).length + 1 = text.length := by
  have nonempty : 0 < text.length := (List.getElem?_eq_some_iff.mp found).1
  rw [List.length_drop]
  omega

/-- The second loop of `parse_string` has a turn for each byte. -/
theorem scanCharacters_reads
    {turns : Nat}
    {ptr : Bytes}
    (enough : ptr.length < turns) :
    Reads id (Text.characters ptr) (scanCharacters turns ptr) := by
  induction turns generalizing ptr with
  | zero => exact absurd enough (Nat.not_lt_zero _)
  | succ turns inductionHypothesis =>
      refine Decides.congr ?_ fun _ => loop_iff
      refine Decides.branch (peek_readsAt 0 ptr) fun byte found => ?_
      have shorter := length_drop_one found
      refine Decides.split (fun ends => ?_) (fun stays => ?_)
      · exact fun result => branch_of_neg found (not_not.mpr ends)
      refine Decides.congr ?_ fun _ => branch_of_pos found stays
      refine Decides.split (fun isEscape => ?_) (fun plain => ?_)
      · refine Decides.congr ?_ fun _ =>
          (seq_branch_of_pos found isEscape).trans seq_assoc
        refine (unescape_reads (ptr.drop 1)).bind fun unescaped phrase => ?_
        have within := escaped_le_shorter _ _ phrase _ rfl
        refine Decides.congr (inductionHypothesis ?_) fun _ => seq_after_empty
        have next : (unescaped.2.drop 1).length ≤ unescaped.2.length :=
          (List.drop_sublist 1 _).length_le
        omega
      · refine Decides.congr (inductionHypothesis (by omega)) fun _ => ?_
        exact (seq_branch_of_neg found plain).trans seq_after_empty

theorem scanString_reads (str : Bytes) :
    Reads id (Text.string str) (scanString str) := by
  refine Decides.branch (peek_readsAt 0 str) fun byte found => ?_
  refine Decides.ite found (fun _ => ?_) (fun _ => malformed_reads str str)
  obtain ⟨rest, reads⟩ := measure_reads (str.drop 1)
  refine Decides.ahead reads fun len _ => ?_
  have shorter := length_drop_one found
  refine (scanCharacters_reads (by omega)).bind fun ptr _ => ?_
  refine Decides.branch (peek_readsAt 0 ptr) fun ending last => ?_
  split
  · next isQuote => exact fun result => branch_of_pos last isQuote
  · next isZero => exact fun result => branch_of_neg last isZero

/-! ### Arrays, objects and values -/

section Entries

variable {phrase : Grammar UInt8}
variable {entry : Bytes → Except ParseError Bytes}
variable {limit : Nat}

/-- A reader of entries decides a grammar on the texts below a length. -/
def ReadsBelow
    (phrase : Grammar UInt8)
    (entry : Bytes → Except ParseError Bytes)
    (limit : Nat) : Prop :=
  ∀ value : Bytes, value.length < limit → Reads id (phrase value) (entry value)

/-- There is a turn for each entry. -/
theorem scanEntries_reads
    (reads : ReadsBelow phrase entry limit)
    (within : phrase ≤ shorter)
    (leaves : phrase ≤ nonempty)
    {turns : Nat}
    {value : Bytes}
    (present : value ≠ [])
    (enough : value.length ≤ turns)
    (inLimit : value.length < limit) :
    Reads id (loop (· = comma) (after 1 phrase) value)
      (scanEntries entry turns value) := by
  induction turns generalizing value with
  | zero =>
      exact absurd (List.length_eq_zero_iff.mp (Nat.le_zero.mp enough)) present
  | succ turns inductionHypothesis =>
      refine Decides.congr ?_ fun _ => loop_iff
      refine Decides.branch (peek_readsAt 0 value) fun byte found => ?_
      have shorter := length_drop_one found
      refine Decides.ite found (fun _ => ?_) (fun _ _ => Iff.rfl)
      refine (reads (value.drop 1) (by omega)).bind fun next first => ?_
      have nextWithin := within _ _ first _ rfl
      exact inductionHypothesis (leaves _ _ first _ rfl) (by omega) (by omega)

/-- The entries are read behind the opening bracket. -/
theorem scanContainer_reads
    (opening closing : UInt8)
    (reads : ReadsBelow phrase entry limit)
    (within : phrase ≤ shorter)
    (leaves : phrase ≤ nonempty)
    {value : Bytes}
    (inLimit : value.length < limit + 1) :
    Reads id (Text.container opening closing phrase value)
      (scanContainer opening closing entry value) := by
  refine Decides.branch (peek_readsAt 0 value) fun byte found => ?_
  have shorter := length_drop_one found
  refine Decides.ite found (fun _ => ?_) (fun _ => malformed_reads value value)
  refine (skip_reads (value.drop 1)).bind fun start skipped => ?_
  have startWithin : start.length ≤ (value.drop 1).length :=
    run_le_shorter _ _ skipped _ rfl
  refine Decides.branch (peek_readsAt 0 start) fun next starts => ?_
  refine Decides.ite starts (fun _ _ => Iff.rfl) fun _ => ?_
  refine (reads start (by omega)).bind fun others first => ?_
  have othersWithin := within _ _ first _ rfl
  refine (scanEntries_reads reads within leaves (leaves _ _ first _ rfl) le_rfl
    (by omega)).bind fun ending _ => ?_
  refine Decides.branch (peek_readsAt 0 ending) fun last found => ?_
  exact Decides.ite found (fun _ _ => Iff.rfl)
    (fun _ => malformed_reads ending ending)

end Entries

section Values

variable {phrase : Grammar UInt8}
variable {scan : Bytes → Except ParseError Bytes}
variable {limit : Nat}

theorem scanElement_reads
    (reads : ReadsBelow phrase scan limit) :
    ReadsBelow (Text.element phrase) (scanElement scan) limit := by
  intro value inLimit
  refine (skip_reads value).bind fun start skipped => ?_
  have startWithin : start.length ≤ value.length :=
    run_le_shorter _ _ skipped _ rfl
  refine (reads start (by omega)).bind fun result _ => ?_
  exact skip_reads result

theorem scanMember_reads
    (reads : ReadsBelow phrase scan limit) :
    ReadsBelow (Text.member phrase) (scanMember scan) limit := by
  intro value inLimit
  refine (skip_reads value).bind fun start skipped => ?_
  have startWithin : start.length ≤ value.length :=
    run_le_shorter _ _ skipped _ rfl
  refine (scanString_reads start).bind fun named spelled => ?_
  have namedWithin : named.length ≤ start.length :=
    string_le_shorter _ _ spelled _ rfl
  refine (skip_reads named).bind fun separator skipped => ?_
  have separatorWithin : separator.length ≤ named.length :=
    run_le_shorter _ _ skipped _ rfl
  refine Decides.branch (peek_readsAt 0 separator) fun byte found => ?_
  refine Decides.ite found (fun _ => ?_)
    (fun _ => malformed_reads separator separator)
  have behind : (separator.drop 1).length + 1 = separator.length :=
    length_drop_one found
  refine (skip_reads (separator.drop 1)).bind fun content skipped => ?_
  have contentWithin : content.length ≤ (separator.drop 1).length :=
    run_le_shorter _ _ skipped _ rfl
  refine (reads content (by omega)).bind fun result _ => ?_
  exact skip_reads result

theorem element_le_shorter
    (within : phrase ≤ shorter) :
    Text.element phrase ≤ shorter :=
  seq_le_shorter run_le_shorter (seq_le_shorter within run_le_shorter)

theorem member_le_shorter
    (within : phrase ≤ shorter) :
    Text.member phrase ≤ shorter :=
  seq_le_shorter run_le_shorter (seq_le_shorter string_le_shorter
    (seq_le_shorter run_le_shorter
      (branch_le_shorter (after_le_shorter 1 (element_le_shorter within))
        never_le_shorter)))

theorem container_le_shorter
    (opening closing : UInt8)
    (within : phrase ≤ shorter) :
    Text.container opening closing phrase ≤ shorter := by
  have passed : after 1 empty ≤ (shorter : Grammar UInt8) :=
    after_le_shorter 1 empty_le_shorter
  refine branch_le_shorter (after_le_shorter 1 ?_) never_le_shorter
  refine seq_le_shorter run_le_shorter (branch_le_shorter passed ?_)
  refine seq_le_shorter within (seq_le_shorter ?_ ?_)
  · exact loop_le_shorter (after_le_shorter 1 within)
  · exact branch_le_shorter passed never_le_shorter

theorem number_le_shorter : Text.number ≤ shorter := by
  have digits : Text.digits ≤ shorter := run_le_shorter
  refine seq_le_shorter optional_le_shorter (seq_le_shorter ?whole
    (seq_le_shorter ?fraction ?exponent))
  case whole =>
    exact seq_le_shorter optional_le_shorter
      (branch_le_shorter digits empty_le_shorter)
  case fraction =>
    exact branch_le_shorter
      (branch_le_shorter (after_le_shorter 1 digits) empty_le_shorter)
      empty_le_shorter
  case exponent =>
    exact branch_le_shorter
      (after_le_shorter 1 (seq_le_shorter optional_le_shorter digits))
      empty_le_shorter

theorem value_le_shorter : Text.value ≤ shorter := by
  refine least_le Text.valueFrom_mono ?_
  refine word_le_shorter _ (word_le_shorter _ (word_le_shorter _ ?_))
  refine branch_le_shorter string_le_shorter ?_
  refine branch_le_shorter number_le_shorter ?_
  refine branch_le_shorter (container_le_shorter _ _ (element_le_shorter le_rfl)) ?_
  exact branch_le_shorter (container_le_shorter _ _ (member_le_shorter le_rfl))
    never_le_shorter

theorem element_le_nonempty : Text.element phrase ≤ nonempty :=
  seq_le_nonempty (seq_le_nonempty run_le_nonempty)

theorem member_le_nonempty : Text.member phrase ≤ nonempty :=
  seq_le_nonempty (seq_le_nonempty (seq_le_nonempty
    (branch_le_nonempty (after_le_nonempty 1 element_le_nonempty)
      never_le_nonempty)))

end Values

/-- A literal is compared byte by byte, up to the first byte that differs. -/
theorem startsWith_cases (literal text : Bytes) :
    (literal <+: text ∧ startsWith literal text = .ok true) ∨
      (¬ literal <+: text ∧
        ((text <+: literal ∧ startsWith literal text = .error .outOfBounds) ∨
          (¬ text <+: literal ∧ startsWith literal text = .ok false))) := by
  induction literal generalizing text with
  | nil => exact .inl ⟨List.nil_prefix, rfl⟩
  | cons expected literal inductionHypothesis =>
      cases text with
      | nil => exact .inr ⟨by simp, .inl ⟨List.nil_prefix, rfl⟩⟩
      | cons byte text =>
          rw [startsWith]
          by_cases same : byte = expected
          · subst same
            simpa only [List.cons_prefix_cons, true_and, if_pos] using
              inductionHypothesis text
          · rw [if_neg same]
            refine .inr ⟨?_, .inr ⟨?_, rfl⟩⟩
            · exact fun starts => same (List.cons_prefix_cons.mp starts).1.symm
            · exact fun starts => same (List.cons_prefix_cons.mp starts).1

theorem startsWith_reads
    {literal text : Bytes}
    {other : Grammar UInt8}
    {missing : Except ParseError Bytes}
    (differs : Reads id (other text) missing) :
    Reads id (word literal other text)
      (startsWith literal text >>= fun starts =>
        if starts then .ok (text.drop literal.length) else missing) := by
  rcases startsWith_cases literal text with
    ⟨starts, same⟩ | ⟨differ, ⟨ends, same⟩ | ⟨stays, same⟩⟩
  · rw [same]
    intro result
    simp [word, starts]
  · rw [same]
    intro result
    simp [word, differ, ends]
  · rw [same]
    refine differs.congr fun result => ?_
    simp [word, differ, stays]

/-- A depth above the length of the text is enough. -/
theorem scanValue_reads (depth : Nat) :
    ReadsBelow Text.value (scanValue depth) depth := by
  induction depth with
  | zero => exact fun value inLimit => absurd inLimit (Nat.not_lt_zero _)
  | succ depth inductionHypothesis =>
      intro value inLimit
      rw [Text.value_eq]
      refine startsWith_reads ?_
      refine startsWith_reads ?_
      refine startsWith_reads ?_
      refine Decides.branch (peek_readsAt 0 value) fun byte found => ?_
      refine Decides.ite found (fun _ => scanString_reads value) fun _ => ?_
      refine Decides.ite found (fun _ => ?_) fun _ => ?_
      · exact (parseNumber_reads newItem value).bind_ok fun _ => rfl
      refine Decides.ite found (fun _ => ?array) fun _ => ?_
      case array =>
        exact scanContainer_reads _ _ (scanElement_reads inductionHypothesis)
          (element_le_shorter value_le_shorter) element_le_nonempty inLimit
      refine Decides.ite found (fun _ => ?object)
        (fun _ => malformed_reads value value)
      case object =>
        exact scanContainer_reads _ _ (scanMember_reads inductionHypothesis)
          (member_le_shorter value_le_shorter) member_le_nonempty inLimit

theorem scan_reads (text : Bytes) :
    Reads id (Text.document text) (scan text) := by
  refine (skip_reads text).bind fun start skipped => ?_
  have startWithin : start.length ≤ text.length :=
    run_le_shorter _ _ skipped _ rfl
  exact scanValue_reads _ start (Nat.lt_succ_of_le startWithin)

/-- The parser reads behind its buffer on the texts that end too soon. -/
theorem scan_eq_outOfBounds_iff (text : Bytes) :
    scan text = .error .outOfBounds ↔ EndsInside text := by
  rw [EndsInside, (scan_reads text).error_iff]
  constructor
  · intro ended
    exact ⟨_, ended, rfl⟩
  · rintro ⟨_, ended, rfl⟩
    exact ended

end CJSON
end ProtobufSandbox
