import ProtobufSandbox.Foundation.Outcome
import ProtobufSandbox.Json.Parse

/-!
# The parser comes to an end

On no text does the parser use up the bounds that the model puts on its loops
and on its recursion: every turn of a loop and every descent takes at least one
byte from what is left of the text.
-/

namespace ProtobufSandbox
namespace CJSON

/-- The parse of a text ends within its bounds, and does not go back in it. -/
abbrev Ends
    (rest : α → Bytes)
    (value : Bytes)
    (outcome : Except ParseError α) :
    Prop :=
  Outcome.Meets (· ≠ .outOfFuel)
    (fun result => (rest result).length ≤ value.length) outcome

/-- A part of the parse that ends, whatever it returns. -/
abbrev Halts (outcome : Except ParseError α) : Prop :=
  Outcome.Meets (· ≠ .outOfFuel) (fun _ => True) outcome

theorem Ends.mono
    {rest : α → Bytes}
    {shorter value : Bytes}
    {outcome : Except ParseError α}
    (ends : Ends rest shorter outcome)
    (le : shorter.length ≤ value.length) :
    Ends rest value outcome :=
  Outcome.Meets.mono ends fun _ within => within.trans le

/-! ## Single bytes and blanks -/

theorem peek_meets (value : Bytes) :
    Outcome.Meets (· ≠ ParseError.outOfFuel) (fun _ => value ≠ [])
      (peek value) := by
  cases value with
  | nil => exact ParseError.noConfusion
  | cons byte value => exact List.cons_ne_nil byte value

theorem length_drop_lt
    {value : Bytes}
    (nonempty : value ≠ []) :
    (value.drop 1).length < value.length := by
  have positive := List.length_pos_iff.mpr nonempty
  rw [List.length_drop]
  omega

theorem length_drop_le
    (count : Nat)
    (value : Bytes) :
    (value.drop count).length ≤ value.length := by
  rw [List.length_drop]
  omega

/-- What `skip` leaves has a first byte. -/
theorem skip_meets (value : Bytes) :
    Outcome.Meets (· ≠ ParseError.outOfFuel)
      (fun rest => rest ≠ [] ∧ rest.length ≤ value.length) (skip value) := by
  induction value with
  | nil => exact ParseError.noConfusion
  | cons byte value inductionHypothesis =>
      rw [skip]
      refine Outcome.Meets.ite (fun _ => ?_)
        (fun _ => ⟨List.cons_ne_nil byte value, le_rfl⟩)
      exact inductionHypothesis.mono fun rest shorter =>
        ⟨shorter.1, Nat.le_succ_of_le shorter.2⟩

/-! ## Numbers -/

theorem readDigits_ends
    {R : Type}
    [Semiring R]
    (n : R)
    (num : Bytes) :
    Ends (fun result => result.2.2) num (readDigits n num) := by
  induction num generalizing n with
  | nil => exact ParseError.noConfusion
  | cons byte num inductionHypothesis =>
      rw [readDigits]
      refine Outcome.Meets.ite (fun _ => ?_) (fun _ => le_rfl)
      exact (inductionHypothesis (Decimal.extend n byte)).bind
        fun _ within => Nat.le_succ_of_le within

theorem readSign_ends (num : Bytes) :
    Ends Prod.snd num (readSign num) :=
  (peek_meets num).bind fun _ _ =>
    Outcome.Meets.ite (fun _ => length_drop_le 1 num) (fun _ => le_rfl)

theorem readWhole_ends (num : Bytes) :
    Ends Prod.snd num (readWhole num) := by
  refine (peek_meets num).bind fun byte _ => ?_
  have within : (if byte = zeroDigit then num.drop 1 else num).length ≤
      num.length := by
    split
    · exact length_drop_le 1 num
    · exact le_rfl
  refine (peek_meets _).bind fun _ _ => Outcome.Meets.ite (fun _ => ?_) ?_
  · exact ((readDigits_ends 0 _).mono within).bind fun _ shorter => shorter
  · exact fun _ => within

theorem readFraction_ends
    (n : Rat)
    (num : Bytes) :
    Ends (fun result => result.2.2) num (readFraction n num) := by
  refine (peek_meets num).bind fun _ _ =>
    Outcome.Meets.ite (fun _ => ?_) (fun _ => le_rfl)
  refine (peek_meets _).bind fun _ _ =>
    Outcome.Meets.ite (fun _ => ?_) (fun _ => le_rfl)
  exact (readDigits_ends n _).mono (length_drop_le 1 num)

theorem readExponent_ends (num : Bytes) :
    Ends Prod.snd num (readExponent num) := by
  refine (peek_meets num).bind fun _ _ =>
    Outcome.Meets.ite (fun _ => ?_) (fun _ => le_rfl)
  refine (peek_meets _).bind fun sign _ => ?_
  have within :
      (if sign = UInt8.ofNat '+'.toNat ∨ sign = minus then
        (num.drop 1).drop 1 else num.drop 1).length ≤ num.length := by
    split
    · exact (length_drop_le 1 _).trans (length_drop_le 1 num)
    · exact length_drop_le 1 num
  exact ((readDigits_ends (0 : Int) _).mono within).bind
    fun _ shorter => shorter

theorem parseNumber_ends
    (item : CJSON)
    (num : Bytes) :
    Ends Prod.snd num (parseNumber item num) :=
  (readSign_ends num).bind fun _ afterSign =>
    ((readWhole_ends _).mono afterSign).bind fun _ afterWhole =>
      ((readFraction_ends _ _).mono afterWhole).bind fun _ afterFraction =>
        ((readExponent_ends _).mono afterFraction).bind fun _ within => within

/-! ## Strings -/

theorem readHex_halts
    (digits : Nat)
    (h : UInt32)
    (str : Bytes) :
    Halts (readHex digits h str) := by
  induction digits generalizing h str with
  | zero => exact trivial
  | succ digits inductionHypothesis =>
      refine (peek_meets str).bind fun byte _ => ?_
      cases hexDigit? byte with
      | none => exact trivial
      | some digit => exact inductionHypothesis _ _

theorem transcode_ends (ptr : Bytes) :
    Ends Prod.snd ptr (transcode ptr) := by
  refine Outcome.Meets.bind (readHex_halts 4 0 _) fun uc _ => ?_
  have within := length_drop_le 4 ptr
  refine Outcome.Meets.ite (fun _ => within) fun _ => ?_
  refine Outcome.Meets.ite (fun _ => ?_) (fun _ => within)
  refine (peek_meets _).bind fun _ _ =>
    Outcome.Meets.ite (fun _ => within) fun _ => ?_
  refine (peek_meets _).bind fun _ _ =>
    Outcome.Meets.ite (fun _ => within) fun _ => ?_
  refine Outcome.Meets.bind (readHex_halts 4 0 _) fun uc2 _ => ?_
  have within := (length_drop_le 6 _).trans within
  exact Outcome.Meets.ite (fun _ => within) (fun _ => within)

theorem unescape_ends (ptr : Bytes) :
    Ends Prod.snd ptr (unescape ptr) := by
  refine (peek_meets ptr).bind fun _ _ => ?_
  iterate 5 refine Outcome.Meets.ite (fun _ => le_rfl) fun _ => ?_
  exact Outcome.Meets.ite (fun _ => transcode_ends ptr) (fun _ => le_rfl)

theorem measure_halts (ptr : Bytes) :
    Halts (measure ptr) := by
  fun_induction measure ptr with
  | case1 => exact ParseError.noConfusion
  | case2 => exact trivial
  | case3 => exact ParseError.noConfusion
  | case4 _ _ _ inductionHypothesis =>
      exact inductionHypothesis.map fun _ _ => trivial
  | case5 _ _ _ _ inductionHypothesis =>
      exact inductionHypothesis.map fun _ _ => trivial

theorem store_halts
    (size : Nat)
    (out bytes : Bytes) :
    Halts (store size out bytes) :=
  Outcome.Meets.ite (fun _ => trivial) (fun _ => ParseError.noConfusion)

theorem copyString_ends
    (size : Nat)
    {turns : Nat}
    {ptr : Bytes}
    (enough : ptr.length < turns)
    (out : Bytes) :
    Ends Prod.snd ptr (copyString size turns ptr out) := by
  induction turns generalizing ptr out with
  | zero => exact absurd enough (Nat.not_lt_zero _)
  | succ turns inductionHypothesis =>
      refine (peek_meets ptr).bind fun byte nonempty => ?_
      have shorter := length_drop_lt nonempty
      refine Outcome.Meets.ite (fun _ => le_rfl) fun _ => ?_
      refine Outcome.Meets.ite (fun _ => ?_) fun _ => ?_
      · refine (store_halts size out [byte]).bind fun _ _ => ?_
        exact (inductionHypothesis (by omega) _).mono shorter.le
      · refine (unescape_ends (ptr.drop 1)).bind fun result within => ?_
        have next := length_drop_le 1 result.2
        refine (store_halts size out result.1).bind fun _ _ => ?_
        exact (inductionHypothesis (by omega) _).mono (by omega)

theorem parseString_ends
    (item : CJSON)
    (str : Bytes) :
    Ends Prod.snd str (parseString item str) := by
  refine (peek_meets str).bind fun _ nonempty => ?_
  refine Outcome.Meets.ite (fun _ => ParseError.noConfusion) fun _ => ?_
  have shorter := length_drop_lt nonempty
  refine (measure_halts (str.drop 1)).bind fun len _ => ?_
  refine (copyString_ends (len + 1) shorter []).bind fun copied within => ?_
  refine (store_halts (len + 1) copied.1 [0]).bind fun _ _ => ?_
  refine (peek_meets copied.2).bind fun byte _ => ?_
  have within := within.trans shorter.le
  change (if byte = quote then copied.2.drop 1 else copied.2).length ≤ _
  split
  · exact (length_drop_le 1 _).trans within
  · exact within

/-! ## Arrays, objects and values -/

/-- A reader of entries ends on texts below a length, in front of a byte. -/
def EntryEnds
    (entry : Bytes → Except ParseError (CJSON × Bytes))
    (limit : Nat) :
    Prop :=
  ∀ value : Bytes, value.length < limit →
    Outcome.Meets (· ≠ ParseError.outOfFuel)
      (fun result => result.2 ≠ [] ∧ result.2.length ≤ value.length)
      (entry value)

section Entries

variable {entry : Bytes → Except ParseError (CJSON × Bytes)}
variable {limit : Nat}

theorem parseEntries_ends
    (entryEnds : EntryEnds entry limit)
    {turns : Nat}
    {value : Bytes}
    (nonempty : value ≠ [])
    (enough : value.length ≤ turns)
    (inLimit : value.length < limit) :
    Ends Prod.snd value (parseEntries entry turns value) := by
  induction turns generalizing value with
  | zero =>
      exact absurd (List.length_eq_zero_iff.mp (Nat.le_zero.mp enough)) nonempty
  | succ turns inductionHypothesis =>
      have shorter := length_drop_lt nonempty
      refine (peek_meets value).bind fun _ _ => ?_
      refine Outcome.Meets.ite (fun _ => le_rfl) fun _ => ?_
      refine (entryEnds (value.drop 1) (by omega)).bind
        fun first within => ?_
      have next := inductionHypothesis within.1 (by omega) (by omega)
      exact (next.mono (by omega)).bind fun _ within => within

/-- The entries are read behind the opening bracket. -/
theorem parseContainer_ends
    (opening closing : UInt8)
    (entryEnds : EntryEnds entry limit)
    {value : Bytes}
    (inLimit : value.length < limit + 1) :
    Ends Prod.snd value (parseContainer opening closing entry value) := by
  refine (peek_meets value).bind fun _ nonempty => ?_
  refine Outcome.Meets.ite (fun _ => ParseError.noConfusion) fun _ => ?_
  have shorter := length_drop_lt nonempty
  refine (skip_meets (value.drop 1)).bind fun start startWithin => ?_
  refine (peek_meets start).bind fun _ _ => ?_
  refine Outcome.Meets.ite (fun _ => ?_) fun _ => ?_
  · exact (length_drop_le 1 start).trans (by omega)
  refine (entryEnds start (by omega)).bind fun first firstWithin => ?_
  have entries :=
    parseEntries_ends entryEnds firstWithin.1 le_rfl (by omega)
  refine Outcome.Meets.bind entries fun result within => ?_
  refine (peek_meets result.2).bind fun _ _ => ?_
  refine Outcome.Meets.ite (fun _ => ?_) (fun _ => ParseError.noConfusion)
  exact (length_drop_le 1 result.2).trans (by omega)

end Entries

section Values

variable {parse : CJSON → Bytes → Except ParseError (CJSON × Bytes)}
variable {limit : Nat}

/-- A parser of values ends on texts below a length. -/
def ParseEnds
    (parse : CJSON → Bytes → Except ParseError (CJSON × Bytes))
    (limit : Nat) :
    Prop :=
  ∀ (item : CJSON) (value : Bytes), value.length < limit →
    Ends Prod.snd value (parse item value)

theorem parseElement_ends
    (parseEnds : ParseEnds parse limit) :
    EntryEnds (parseElement parse) limit := by
  intro value inLimit
  refine (skip_meets value).bind fun start startWithin => ?_
  refine Outcome.Meets.bind (parseEnds newItem start (by omega))
    fun result within => ?_
  refine (skip_meets result.2).bind fun ending endingWithin => ?_
  exact ⟨endingWithin.1, show ending.length ≤ value.length by omega⟩

theorem parseMember_ends
    (parseEnds : ParseEnds parse limit) :
    EntryEnds (parseMember parse) limit := by
  intro value inLimit
  refine (skip_meets value).bind fun start startWithin => ?_
  refine (parseString_ends newItem start).bind fun named namedWithin => ?_
  refine (skip_meets named.2).bind fun separator separatorWithin => ?_
  refine (peek_meets separator).bind fun _ _ => ?_
  refine Outcome.Meets.ite (fun _ => ParseError.noConfusion) fun _ => ?_
  have behind := length_drop_le 1 separator
  refine (skip_meets _).bind fun content contentWithin => ?_
  refine Outcome.Meets.bind (parseEnds _ content (by omega))
    fun result within => ?_
  refine (skip_meets result.2).bind fun ending endingWithin => ?_
  exact ⟨endingWithin.1, show ending.length ≤ value.length by omega⟩

theorem parseArray_ends
    (parseEnds : ParseEnds parse limit)
    (item : CJSON)
    {value : Bytes}
    (inLimit : value.length < limit + 1) :
    Ends Prod.snd value (parseArray parse item value) :=
  Outcome.Meets.bind
    (parseContainer_ends _ _ (parseElement_ends parseEnds) inLimit)
    fun _ within => within

theorem parseObject_ends
    (parseEnds : ParseEnds parse limit)
    (item : CJSON)
    {value : Bytes}
    (inLimit : value.length < limit + 1) :
    Ends Prod.snd value (parseObject parse item value) :=
  Outcome.Meets.bind
    (parseContainer_ends _ _ (parseMember_ends parseEnds) inLimit)
    fun _ within => within

end Values

/-- A depth above the length of the text is enough. -/
theorem parseValue_ends (depth : Nat) :
    ParseEnds (parseValue depth) depth := by
  induction depth with
  | zero => exact fun _ value inLimit => absurd inLimit (Nat.not_lt_zero _)
  | succ depth inductionHypothesis =>
      intro item value inLimit
      refine parseValue_meets ParseError.noConfusion ParseError.noConfusion
        (length_drop_le 4 value) (length_drop_le 5 value) (length_drop_le 4 value)
        ?string ?number ?array ?object
      case string => exact parseString_ends item value
      case number => exact fun _ _ _ _ => parseNumber_ends item value
      case array => exact parseArray_ends inductionHypothesis item inLimit
      case object => exact parseObject_ends inductionHypothesis item inLimit

theorem parseWithOpts_ends
    (value : Bytes)
    (requireNullTerminated : Bool) :
    Ends Prod.snd value (parseWithOpts value requireNullTerminated) := by
  refine (skip_meets value).bind fun start startWithin => ?_
  refine Outcome.Meets.bind
    (parseValue_ends _ newItem start (Nat.lt_succ_of_le startWithin.2))
    fun result within => ?_
  have within := within.trans startWithin.2
  refine Outcome.Meets.ite (fun _ => ?_) (fun _ => within)
  refine (skip_meets result.2).bind fun ending endingWithin => ?_
  refine (peek_meets ending).bind fun _ _ => ?_
  exact Outcome.Meets.ite (fun _ => ParseError.noConfusion)
    (fun _ => endingWithin.2.trans within)

/-- On every text the parser finds an item, rejects the text, or goes out of one
of the two buffers. -/
theorem parse_ne_outOfFuel (value : Bytes) :
    parse value ≠ .error .outOfFuel := by
  have ends : Halts (parse value) :=
    (parseWithOpts_ends value false).bind fun _ _ => trivial
  intro exhausted
  rw [exhausted] at ends
  exact ends rfl

end CJSON
end ProtobufSandbox
