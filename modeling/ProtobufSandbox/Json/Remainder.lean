import Mathlib.Tactic.Linarith
import ProtobufSandbox.Json.Shape

/-!
# What a parse leaves

A part of the parser leaves an end of the text that it was given. How much it
takes at least depends on what it returns: a member with a number takes its
name, its quotes, the colon and one byte for each byte of the number.
-/

namespace ProtobufSandbox
namespace CJSON

/-- A part of the parse that leaves an end of its text. -/
abbrev LeavesSuffix
    (rest : α → Bytes)
    (value : Bytes)
    (outcome : Except ParseError α) : Prop :=
  Returns (fun result => rest result <:+ value) outcome

theorem LeavesSuffix.mono
    {rest : α → Bytes}
    {shorter value : Bytes}
    {outcome : Except ParseError α}
    (leaves : LeavesSuffix rest shorter outcome)
    (suffix : shorter <:+ value) :
    LeavesSuffix rest value outcome :=
  Outcome.Meets.mono leaves fun _ within => within.trans suffix

/-! ## Numbers and strings -/

/-- A byte that is read is the first one. -/
theorem peek_returns (value : Bytes) :
    Returns (fun byte => ∃ tail, value = byte :: tail) (peek value) := by
  cases value with
  | nil => trivial
  | cons byte tail => exact ⟨tail, rfl⟩

theorem skip_leaves (value : Bytes) : LeavesSuffix id value (skip value) := by
  induction value with
  | nil => trivial
  | cons byte value inductionHypothesis =>
      rw [skip]
      refine Outcome.Meets.ite (fun _ => ?_) fun _ => List.suffix_refl _
      exact inductionHypothesis.mono (List.suffix_cons byte value)

theorem readDigits_leaves
    {R : Type}
    [Semiring R]
    (n : R)
    (num : Bytes) :
    LeavesSuffix (fun result => result.2.2) num (readDigits n num) := by
  induction num generalizing n with
  | nil => trivial
  | cons byte num inductionHypothesis =>
      rw [readDigits]
      refine Outcome.Meets.ite (fun _ => ?_) fun _ => List.suffix_refl _
      refine (inductionHypothesis (Decimal.extend n byte)).bind fun _ within => ?_
      exact within.trans (List.suffix_cons byte num)

theorem readSign_leaves (num : Bytes) :
    LeavesSuffix Prod.snd num (readSign num) :=
  (returns_true _).bind fun _ _ =>
    Outcome.Meets.ite (fun _ => List.drop_suffix 1 num)
      fun _ => List.suffix_refl num

theorem readWhole_leaves (num : Bytes) :
    LeavesSuffix Prod.snd num (readWhole num) := by
  refine (returns_true _).bind fun byte _ => ?_
  have within : (if byte = zeroDigit then num.drop 1 else num) <:+ num := by
    split
    · exact List.drop_suffix 1 num
    · exact List.suffix_refl num
  refine (returns_true _).bind fun _ _ => Outcome.Meets.ite (fun _ => ?_) ?_
  · exact ((readDigits_leaves 0 _).mono within).bind fun _ suffix => suffix
  · exact fun _ => within

theorem readFraction_leaves
    (n : Rat)
    (num : Bytes) :
    LeavesSuffix (fun result => result.2.2) num (readFraction n num) := by
  refine (returns_true _).bind fun _ _ =>
    Outcome.Meets.ite (fun _ => ?_) fun _ => List.suffix_refl num
  refine (returns_true _).bind fun _ _ =>
    Outcome.Meets.ite (fun _ => ?_) fun _ => List.suffix_refl num
  exact (readDigits_leaves n _).mono (List.drop_suffix 1 num)

theorem readExponent_leaves (num : Bytes) :
    LeavesSuffix Prod.snd num (readExponent num) := by
  refine (returns_true _).bind fun _ _ =>
    Outcome.Meets.ite (fun _ => ?_) fun _ => List.suffix_refl num
  refine (returns_true _).bind fun sign _ => ?_
  have within :
      (if sign = UInt8.ofNat '+'.toNat ∨ sign = minus then
        (num.drop 1).drop 1 else num.drop 1) <:+ num := by
    split
    · exact (List.drop_suffix 1 _).trans (List.drop_suffix 1 num)
    · exact List.drop_suffix 1 num
  exact ((readDigits_leaves (0 : Int) _).mono within).bind
    fun _ suffix => suffix

theorem parseNumber_leaves
    (item : CJSON)
    (num : Bytes) :
    LeavesSuffix Prod.snd num (parseNumber item num) :=
  (readSign_leaves num).bind fun _ afterSign =>
    ((readWhole_leaves _).mono afterSign).bind fun _ afterWhole =>
      ((readFraction_leaves _ _).mono afterWhole).bind fun _ afterFraction =>
        ((readExponent_leaves _).mono afterFraction).bind fun _ suffix => suffix

theorem transcode_leaves (ptr : Bytes) :
    LeavesSuffix Prod.snd ptr (transcode ptr) := by
  refine (returns_true _).bind fun uc _ => ?_
  have within := List.drop_suffix 4 ptr
  refine Outcome.Meets.ite (fun _ => within) fun _ => ?_
  refine Outcome.Meets.ite (fun _ => ?_) fun _ => within
  refine (returns_true _).bind fun _ _ =>
    Outcome.Meets.ite (fun _ => within) fun _ => ?_
  refine (returns_true _).bind fun _ _ =>
    Outcome.Meets.ite (fun _ => within) fun _ => ?_
  refine (returns_true _).bind fun uc2 _ => ?_
  have further := (List.drop_suffix 6 _).trans within
  exact Outcome.Meets.ite (fun _ => further) fun _ => further

/-- What stands behind a backslash takes at least one byte. -/
theorem unescape_leaves (ptr : Bytes) :
    Returns (fun result => ptr ≠ [] ∧ result.2 <:+ ptr) (unescape ptr) := by
  refine (peek_returns ptr).bind fun byte first => ?_
  have nonempty : ptr ≠ [] := by
    obtain ⟨tail, rfl⟩ := first
    exact List.cons_ne_nil byte tail
  have same : ptr ≠ [] ∧ ptr <:+ ptr := ⟨nonempty, List.suffix_refl ptr⟩
  iterate 5 refine Outcome.Meets.ite (fun _ => same) fun _ => ?_
  refine Outcome.Meets.ite (fun _ => ?_) fun _ => same
  exact Outcome.Meets.mono (transcode_leaves ptr) fun _ suffix =>
    ⟨nonempty, suffix⟩

theorem store_returns
    (size : Nat)
    (out bytes : Bytes) :
    Returns (· = out ++ bytes) (store size out bytes) :=
  Outcome.Meets.ite (fun _ => rfl) fun _ => trivial

/-- The loop stops at a quote or a zero byte, and takes two bytes to write
two. -/
theorem copyString_leaves
    (size turns : Nat)
    (ptr out : Bytes) :
    Returns
      (fun result => result.2 <:+ ptr ∧
        (∃ byte tail, result.2 = byte :: tail ∧ (byte = quote ∨ byte = 0)) ∧
        min (out.length + 2) result.1.length + result.2.length ≤
          out.length + ptr.length)
      (copyString size turns ptr out) := by
  induction turns generalizing ptr out with
  | zero => trivial
  | succ turns inductionHypothesis =>
      refine (peek_returns ptr).bind fun byte first => ?_
      obtain ⟨tail, rfl⟩ := first
      refine Outcome.Meets.ite (fun stops => ?_) fun _ => ?_
      · exact ⟨List.suffix_refl _, ⟨byte, tail, rfl, stops⟩,
          Nat.add_le_add_right (Nat.min_le_right _ _) _⟩
      refine Outcome.Meets.ite (fun _ => ?_) fun _ => ?_
      · refine (store_returns size out [byte]).bind fun stored same => ?_
        subst same
        refine (inductionHypothesis tail _).mono fun result taken => ?_
        obtain ⟨suffix, stops, length⟩ := taken
        refine ⟨suffix.trans (List.suffix_cons byte tail), stops, ?_⟩
        rw [List.length_append, List.length_singleton] at length
        rw [List.length_cons]
        omega
      · refine (unescape_leaves tail).bind fun escaped behind => ?_
        obtain ⟨nonempty, suffix⟩ := behind
        have next := (List.drop_suffix 1 escaped.2).trans suffix
        have shorter : (escaped.2.drop 1).length + 1 ≤ tail.length := by
          have positive := List.length_pos_iff.mpr nonempty
          have within := suffix.length_le
          rw [List.length_drop]
          omega
        refine (store_returns size out escaped.1).bind fun stored _ => ?_
        refine (inductionHypothesis _ stored).mono fun result taken => ?_
        obtain ⟨rest, stops, -⟩ := taken
        refine ⟨(rest.trans next).trans (List.suffix_cons byte tail), stops, ?_⟩
        have left := rest.length_le
        rw [List.length_cons]
        omega

/-- The C string in a terminated buffer. -/
theorem length_cString_append_zero_le (out : Bytes) :
    (cString (out ++ [0])).length ≤ out.length := by
  rw [cString, List.takeWhile_append]
  split
  · simp
  · exact (List.takeWhile_sublist _).length_le

/-- A string of two bytes takes four with its quotes, or is not ended. -/
theorem parseString_leaves
    (item : CJSON)
    (str : Bytes) :
    Returns
      (fun result => result.2 <:+ str ∧
        ∀ string, result.1.valuestring = some string →
          2 ≤ string.val.length →
            result.2.length + 4 ≤ str.length ∨ ∃ tail, result.2 = 0 :: tail)
      (parseString item str) := by
  refine (peek_returns str).bind fun byte first => ?_
  obtain ⟨tail, rfl⟩ := first
  refine Outcome.Meets.ite (fun _ => trivial) fun _ => ?_
  refine (returns_true _).bind fun len _ => ?_
  refine (copyString_leaves (len + 1) _ _ _).bind fun copied taken => ?_
  obtain ⟨suffix, ⟨last, behind, left, stops⟩, length⟩ := taken
  refine (store_returns _ copied.1 [0]).bind fun out stored => ?_
  subst stored
  refine (peek_returns copied.2).bind fun next first => ?_
  obtain rfl : last = next := by
    obtain ⟨other, same⟩ := first
    exact (List.cons.inj (left.symm.trans same)).1
  have inside := suffix.trans (List.drop_suffix 1 (byte :: tail))
  rw [List.drop_one, List.tail_cons] at length
  dsimp only
  by_cases closed : last = quote
  · rw [if_pos closed]
    refine ⟨(List.drop_suffix 1 _).trans inside, ?_⟩
    rintro string ⟨rfl⟩ two
    have long := two.trans (length_cString_append_zero_le copied.1)
    left
    rw [left, List.length_cons] at length
    rw [left, List.drop_one, List.tail_cons]
    change behind.length + 4 ≤ tail.length + 1
    simp only [List.length_nil] at length
    omega
  · rw [if_neg closed]
    refine ⟨inside, fun _ _ _ => .inr ⟨behind, ?_⟩⟩
    rw [left, stops.resolve_left closed]

/-! ## Arrays, objects and values -/

/-- A reader of entries that leaves an end of its text. -/
def EntryLeaves (entry : Bytes → Except ParseError (CJSON × Bytes)) : Prop :=
  ∀ value, LeavesSuffix Prod.snd value (entry value)

/-- A parser of values that leaves an end of its text. -/
def ValueLeaves
    (parse : CJSON → Bytes → Except ParseError (CJSON × Bytes)) : Prop :=
  ∀ item value, LeavesSuffix Prod.snd value (parse item value)

section Entries

variable {entry : Bytes → Except ParseError (CJSON × Bytes)}

theorem parseEntries_leaves
    (leaves : EntryLeaves entry)
    (turns : Nat)
    (value : Bytes) :
    LeavesSuffix Prod.snd value (parseEntries entry turns value) := by
  induction turns generalizing value with
  | zero => trivial
  | succ turns inductionHypothesis =>
      refine (returns_true _).bind fun byte _ => ?_
      refine Outcome.Meets.ite (fun _ => List.suffix_refl value) fun _ => ?_
      have behind := (leaves (value.drop 1)).mono (List.drop_suffix 1 value)
      refine Outcome.Meets.bind behind fun first within => ?_
      have rest := (inductionHypothesis first.2).mono within
      exact Outcome.Meets.bind rest fun _ suffix => suffix

theorem parseContainer_leaves
    (opening closing : UInt8)
    (leaves : EntryLeaves entry)
    (value : Bytes) :
    LeavesSuffix Prod.snd value
      (parseContainer opening closing entry value) := by
  refine (returns_true _).bind fun byte _ => ?_
  refine Outcome.Meets.ite (fun _ => trivial) fun _ => ?_
  have inside := (skip_leaves (value.drop 1)).mono (List.drop_suffix 1 value)
  refine Outcome.Meets.bind inside fun start within => ?_
  refine (returns_true _).bind fun byte _ => ?_
  refine Outcome.Meets.ite (fun _ => ?_) fun _ => ?_
  · exact (List.drop_suffix 1 start).trans within
  refine Outcome.Meets.bind ((leaves start).mono within) fun first within => ?_
  have rest := (parseEntries_leaves leaves first.2.length first.2).mono within
  refine Outcome.Meets.bind rest fun result within => ?_
  refine (returns_true _).bind fun byte _ => ?_
  refine Outcome.Meets.ite (fun _ => ?_) fun _ => trivial
  exact (List.drop_suffix 1 result.2).trans within

end Entries

section Values

variable {parse : CJSON → Bytes → Except ParseError (CJSON × Bytes)}

theorem parseElement_leaves (leaves : ValueLeaves parse) :
    EntryLeaves (parseElement parse) := by
  intro value
  refine Outcome.Meets.bind (skip_leaves value) fun start within => ?_
  refine Outcome.Meets.bind ((leaves newItem start).mono within)
    fun result within => ?_
  exact Outcome.Meets.bind ((skip_leaves result.2).mono within)
    fun _ suffix => suffix

theorem parseMember_leaves (leaves : ValueLeaves parse) :
    EntryLeaves (parseMember parse) := by
  intro value
  refine Outcome.Meets.bind (skip_leaves value) fun start within => ?_
  refine Outcome.Meets.bind (parseString_leaves newItem start)
    fun named taken => ?_
  have within := taken.1.trans within
  refine Outcome.Meets.bind ((skip_leaves named.2).mono within)
    fun separator within => ?_
  refine (returns_true _).bind fun byte _ => ?_
  refine Outcome.Meets.ite (fun _ => trivial) fun _ => ?_
  have within := (List.drop_suffix 1 separator).trans within
  refine Outcome.Meets.bind ((skip_leaves _).mono within)
    fun content within => ?_
  refine Outcome.Meets.bind ((leaves _ content).mono within)
    fun result within => ?_
  exact Outcome.Meets.bind ((skip_leaves result.2).mono within)
    fun _ suffix => suffix

end Values

theorem parseValue_leaves (depth : Nat) : ValueLeaves (parseValue depth) := by
  induction depth with
  | zero => exact fun _ _ => trivial
  | succ depth inductionHypothesis =>
      intro item value
      refine parseValue_meets trivial trivial (List.drop_suffix 4 value)
        (List.drop_suffix 5 value) (List.drop_suffix 4 value) ?string ?number ?array
        ?object
      case string =>
        exact (parseString_leaves item value).mono fun _ taken => taken.1
      case number => exact fun _ _ _ _ => parseNumber_leaves item value
      case array =>
        exact Outcome.Meets.bind
          (parseContainer_leaves _ _ (parseElement_leaves inductionHypothesis)
            value)
          fun _ suffix => suffix
      case object =>
        exact Outcome.Meets.bind
          (parseContainer_leaves _ _ (parseMember_leaves inductionHypothesis)
            value)
          fun _ suffix => suffix

/-! ## Numbers of one byte -/

/-- Digits that are taken make a number of no more digits. -/
theorem readDigits_bound
    {n : Rat}
    (nonnegative : 0 ≤ n)
    (num : Bytes) :
    Returns
      (fun result => 0 ≤ result.1 ∧ ∃ count,
        num.length = result.2.2.length + count ∧
          result.1 + 1 ≤ (n + 1) * 10 ^ count)
      (readDigits n num) := by
  induction num generalizing n with
  | nil => trivial
  | cons byte num inductionHypothesis =>
      rw [readDigits]
      refine Outcome.Meets.ite (fun digit => ?_) fun _ => ?_
      · have value : (Decimal.digitValue byte : Rat) ≤ 9 := by
          exact_mod_cast Decimal.digitValue_le digit
        have extended : 0 ≤ Decimal.extend n byte :=
          add_nonneg (mul_nonneg nonnegative (by norm_num)) (Nat.cast_nonneg _)
        refine (inductionHypothesis extended).bind fun result bound => ?_
        obtain ⟨nonnegative, count, length, bound⟩ := bound
        refine ⟨nonnegative, count + 1, congrArg Nat.succ length, ?_⟩
        calc result.1 + 1
          _ ≤ (Decimal.extend n byte + 1) * 10 ^ count := bound
          _ ≤ ((n + 1) * 10) * 10 ^ count := by
              gcongr
              rw [Decimal.extend]
              linarith
          _ = (n + 1) * 10 ^ (count + 1) := by
              rw [pow_succ]
              ring
      · exact ⟨nonnegative, 0, rfl, by rw [pow_zero, mul_one]⟩

/-- The digits in front of the point make a number of no more digits. -/
theorem readWhole_bound (num : Bytes) :
    Returns
      (fun result => 0 ≤ result.1 ∧ ∃ count,
        num.length = result.2.length + count ∧ result.1 + 1 ≤ 10 ^ count)
      (readWhole num) := by
  refine (peek_returns num).bind fun byte first => ?_
  obtain ⟨tail, rfl⟩ := first
  have skipped : ∃ zeros,
      (byte :: tail).length =
        (if byte = zeroDigit then (byte :: tail).drop 1
          else byte :: tail).length + zeros := by
    split
    · exact ⟨1, rfl⟩
    · exact ⟨0, rfl⟩
  obtain ⟨zeros, length⟩ := skipped
  have more : (1 : Rat) ≤ 10 ^ zeros := one_le_pow₀ (by norm_num)
  refine (returns_true _).bind fun next _ => ?_
  refine Outcome.Meets.ite (fun _ => ?_) fun _ => ?_
  · refine (readDigits_bound le_rfl _).bind fun result bound => ?_
    obtain ⟨nonnegative, count, shorter, bound⟩ := bound
    refine ⟨nonnegative, count + zeros, ?_, ?_⟩
    · rw [length, shorter, Nat.add_assoc]
    · rw [zero_add, one_mul] at bound
      rw [pow_add]
      exact bound.trans (le_mul_of_one_le_right (by positivity) more)
  · exact ⟨le_rfl, zeros, length, by rwa [zero_add]⟩

/-- A digit is taken. -/
theorem readWhole_digit
    {byte : UInt8}
    (digit : Decimal.isDigit byte = true)
    (tail : Bytes) :
    LeavesSuffix Prod.snd tail (readWhole (byte :: tail)) := by
  refine (peek_returns (byte :: tail)).bind fun first same => ?_
  obtain ⟨other, same⟩ := same
  obtain ⟨rfl, rfl⟩ := List.cons.inj same
  by_cases zero : byte = zeroDigit
  · rw [if_pos zero]
    refine (returns_true _).bind fun next _ =>
      Outcome.Meets.ite (fun _ => ?_) fun _ => List.suffix_refl tail
    exact Outcome.Meets.bind (readDigits_leaves 0 tail) fun _ suffix => suffix
  · rw [if_neg zero]
    refine (peek_returns (byte :: tail)).bind fun next same => ?_
    obtain ⟨other, same⟩ := same
    obtain ⟨rfl, rfl⟩ := List.cons.inj same
    refine Outcome.Meets.ite (fun _ => ?_) fun small => ?_
    · rw [readDigits, if_pos digit]
      refine Outcome.Meets.bind ?_ fun result suffix => suffix
      exact Outcome.Meets.bind (readDigits_leaves (Decimal.extend 0 byte) tail)
        fun result suffix => suffix
    · have range := of_decide_eq_true digit
      exact absurd ⟨UInt8.lt_of_le_of_ne range.1 (Ne.symm zero), range.2⟩ small

/-- Without a point the number stays as it is. -/
theorem readFraction_same
    (n : Rat)
    (num : Bytes) :
    Returns
      (fun result => result.2.2.length = num.length →
        result.1 = n ∧ result.2.1 = 0)
      (readFraction n num) := by
  refine (peek_returns num).bind fun byte first => ?_
  obtain ⟨tail, rfl⟩ := first
  refine Outcome.Meets.ite (fun _ => ?_) fun _ _ => ⟨rfl, rfl⟩
  refine (returns_true _).bind fun _ _ =>
    Outcome.Meets.ite (fun _ => ?_) fun _ _ => ⟨rfl, rfl⟩
  refine Outcome.Meets.mono (readDigits_leaves n tail) fun result suffix same => ?_
  have shorter : result.2.2.length ≤ tail.length := suffix.length_le
  have longer : result.2.2.length = tail.length + 1 := same
  omega

/-- Without an exponent it is zero. -/
theorem readExponent_same (num : Bytes) :
    Returns (fun result => result.2.length = num.length → result.1 = 0)
      (readExponent num) := by
  refine (peek_returns num).bind fun byte first => ?_
  obtain ⟨tail, rfl⟩ := first
  refine Outcome.Meets.ite (fun _ => ?_) fun _ _ => rfl
  refine (returns_true _).bind fun sign _ => ?_
  have within :
      (if sign = UInt8.ofNat '+'.toNat ∨ sign = minus then
        ((byte :: tail).drop 1).drop 1 else (byte :: tail).drop 1) <:+ tail := by
    split
    · exact List.drop_suffix 1 tail
    · exact List.suffix_refl tail
  refine Outcome.Meets.bind ((readDigits_leaves (0 : Int) _).mono within)
    fun result suffix same => ?_
  have shorter : result.2.2.length ≤ tail.length := suffix.length_le
  have longer : result.2.2.length = tail.length + 1 := same
  omega

/-- A number of at most nine is converted to at most nine. -/
theorem toInt_le_nine
    {number : Rat}
    (small : number ≤ 9) :
    (toInt number).toInt ≤ 9 := by
  have truncated : (if number < 0 then -⌊-number⌋ else ⌊number⌋) ≤ 9 := by
    split
    · next negative =>
        have floor : 0 ≤ ⌊-number⌋ := Int.floor_nonneg.mpr (by linarith)
        omega
    · exact Int.floor_le_iff.mpr (by push_cast; linarith)
  unfold toInt
  dsimp only
  by_cases inRange :
      Int32.minValue.toInt ≤ (if number < 0 then -⌊-number⌋ else ⌊number⌋) ∧
        (if number < 0 then -⌊-number⌋ else ⌊number⌋) ≤ Int32.maxValue.toInt
  · rw [if_pos inRange, Int32.toInt_ofInt_of_le inRange.1
      (Int.lt_of_le_of_lt inRange.2 (by decide))]
    exact truncated
  · rw [if_neg inRange]
    decide

/-- What is known of a number that is read from a text: it takes a byte, and if
it takes one only, it is at most nine. -/
def TakesNumber (value : Bytes) (result : CJSON × Bytes) : Prop :=
  result.2.length + 1 ≤ value.length ∧
    (value.length = result.2.length + 1 → result.1.valueint.toInt ≤ 9)

/-- The parts of a number behind its sign. -/
theorem parseNumber_takes
    (item : CJSON)
    {byte : UInt8}
    (starts : byte = minus ∨ Decimal.isDigit byte = true)
    (tail : Bytes) :
    Returns (TakesNumber (byte :: tail)) (parseNumber item (byte :: tail)) := by
  have signed : Returns
      (fun result => (result = (-1, tail)) ∨
        result = (1, byte :: tail) ∧ Decimal.isDigit byte = true)
      (readSign (byte :: tail)) := by
    refine (peek_returns (byte :: tail)).bind fun first same => ?_
    obtain ⟨other, same⟩ := same
    obtain ⟨rfl, rfl⟩ := List.cons.inj same
    exact Outcome.Meets.ite (fun _ => .inl rfl)
      fun positive => .inr ⟨rfl, starts.resolve_left positive⟩
  refine signed.bind fun first parted => ?_
  obtain ⟨sign, afterSign⟩ := first
  have inTail : LeavesSuffix Prod.snd tail (readWhole afterSign) := by
    rcases parted with same | ⟨same, digit⟩
    · cases same
      exact readWhole_leaves tail
    · cases same
      exact readWhole_digit digit tail
  refine ((readWhole_bound afterSign).and inTail).bind fun second whole => ?_
  obtain ⟨n, afterWhole⟩ := second
  obtain ⟨⟨nonnegative, count, length, bound⟩, inTail⟩ := whole
  refine ((readFraction_leaves n afterWhole).and (readFraction_same n afterWhole)).bind
    fun third fraction => ?_
  obtain ⟨m, scale, afterFraction⟩ := third
  obtain ⟨inWhole, sameFraction⟩ := fraction
  refine ((readExponent_leaves afterFraction).and
    (readExponent_same afterFraction)).bind fun fourth exponent => ?_
  obtain ⟨subscale, rest⟩ := fourth
  obtain ⟨inFraction, sameExponent⟩ := exponent
  have wholeLength : afterWhole.length ≤ tail.length := inTail.length_le
  have fractionLength : afterFraction.length ≤ afterWhole.length :=
    inWhole.length_le
  have restLength : rest.length ≤ afterFraction.length := inFraction.length_le
  refine ⟨show rest.length + 1 ≤ tail.length + 1 by omega, fun one => ?_⟩
  -- Every part behind the first byte took nothing.
  have all : tail.length + 1 = rest.length + 1 := one
  obtain ⟨rfl, rfl⟩ := sameFraction (by dsimp only; omega)
  obtain rfl : subscale = 0 := sameExponent (by dsimp only; omega)
  apply toInt_le_nine
  have small : sign * m ≤ 9 := by
    dsimp only at length
    rcases parted with same | ⟨same, digit⟩
    · cases same
      obtain rfl : count = 0 := by omega
      linarith
    · cases same
      rw [List.length_cons] at length
      obtain rfl : count = 1 := by omega
      linarith
  simpa using small

/-- Only a number is read as one. -/
theorem parseValue_takes
    (depth : Nat)
    (item : CJSON)
    (value : Bytes) :
    Returns (fun result => result.1.type = .number → TakesNumber value result)
      (parseValue depth item value) := by
  cases depth with
  | zero => trivial
  | succ depth =>
      refine parseValue_meets trivial trivial CJSONType.noConfusion
        CJSONType.noConfusion CJSONType.noConfusion ?string ?number ?array ?object
      case string =>
        refine (parseString_returns item value).mono ?_
        intro result named number
        rw [named.1] at number
        cases number
      case number =>
        rintro byte tail rfl starts
        exact (parseNumber_takes item starts tail).mono fun _ takes _ => takes
      case array =>
        exact (returns_true _).bind fun _ _ => CJSONType.noConfusion
      case object =>
        exact (returns_true _).bind fun _ _ => CJSONType.noConfusion

/-! ## Members with a number -/

/-- A number with a name of two bytes or more. -/
def NumberNamed (item : CJSON) : Prop :=
  item.type = .number ∧
    ∃ string, item.string = some string ∧ 2 ≤ string.val.length

/-- What is known of such a member: its name takes four bytes with the quotes,
the colon one, and the number one or more. -/
def TakesMember (value : Bytes) (result : CJSON × Bytes) : Prop :=
  result.2.length + 6 ≤ value.length ∧
    (value.length = result.2.length + 6 → result.1.valueint.toInt ≤ 9)

/-- A zero byte is no blank. -/
theorem skip_returns (value : Bytes) :
    Returns
      (fun rest => rest <:+ value ∧ ∀ tail, value = 0 :: tail → rest = value)
      (skip value) := by
  refine (skip_leaves value).and ?_
  cases value with
  | nil => trivial
  | cons byte value =>
      rw [skip]
      refine Outcome.Meets.ite (fun blank => ?_) fun _ _ _ => rfl
      refine (returns_true _).mono fun rest _ tail same => ?_
      exact absurd (List.cons.inj same).1 blank.1

section Members

variable {parse : CJSON → Bytes → Except ParseError (CJSON × Bytes)}
variable {entry : Bytes → Except ParseError (CJSON × Bytes)}

theorem parseMember_takes
    (leaves : ValueLeaves parse)
    (builds : Builds parse)
    (takes : ∀ item value,
      Returns (fun result => result.1.type = .number → TakesNumber value result)
        (parse item value))
    (value : Bytes) :
    Returns (fun result => NumberNamed result.1 → TakesMember value result)
      (parseMember parse value) := by
  refine (skip_returns value).bind fun start startWithin => ?_
  refine ((parseString_leaves newItem start).and
    (parseString_returns newItem start)).bind fun named read => ?_
  obtain ⟨⟨namedWithin, spelled⟩, -, childless, -⟩ := read
  refine (skip_returns named.2).bind fun separator separatorWithin => ?_
  refine (peek_returns separator).bind fun byte first => ?_
  obtain ⟨tail, rfl⟩ := first
  refine Outcome.Meets.ite (fun _ => trivial) fun isColon => ?_
  obtain rfl : byte = colon := not_not.mp isColon
  refine (skip_returns _).bind fun content contentWithin => ?_
  let new : CJSON :=
    { named.1 with string := named.1.valuestring, valuestring := none }
  refine ((builds new content childless).and
    ((takes new content).and (leaves new content))).bind fun result read => ?_
  obtain ⟨⟨-, sameName⟩, takesNumber, resultWithin⟩ := read
  refine (skip_returns result.2).bind fun ending endingWithin => ?_
  rintro ⟨number, string, isName, long⟩
  obtain ⟨enough, exactly⟩ := takesNumber number
  have ended : named.2.length + 4 ≤ start.length := by
    refine (spelled string (sameName.symm.trans isName) long).resolve_right ?_
    rintro ⟨rest, zero⟩
    have same := separatorWithin.2 rest zero
    rw [zero] at same
    cases (List.cons.inj same).1
  have startLength := startWithin.1.length_le
  have separatorLength := separatorWithin.1.length_le
  have contentLength : content.length ≤ tail.length := contentWithin.1.length_le
  have endingLength := endingWithin.1.length_le
  rw [List.length_cons] at separatorLength
  refine ⟨show ending.length + 6 ≤ value.length by omega, fun shortest => ?_⟩
  have shortest : value.length = ending.length + 6 := shortest
  exact exactly (by omega)

/-- Readers of entries in which a member with a number takes six bytes. -/
def EntryTakes (entry : Bytes → Except ParseError (CJSON × Bytes)) : Prop :=
  ∀ value, Returns
    (fun result => NumberNamed result.1 → TakesMember value result) (entry value)

/-- Behind the first member there is a comma in front of each. -/
theorem parseEntries_takes
    (leaves : EntryLeaves entry)
    (takes : EntryTakes entry)
    (turns : Nat)
    (value : Bytes) :
    Returns
      (fun result => ∀ member ∈ result.1, NumberNamed member →
        result.2.length + 7 ≤ value.length)
      (parseEntries entry turns value) := by
  induction turns generalizing value with
  | zero => trivial
  | succ turns inductionHypothesis =>
      refine (peek_returns value).bind fun byte first => ?_
      obtain ⟨tail, rfl⟩ := first
      refine Outcome.Meets.ite (fun _ => ?_) fun _ => ?_
      · exact fun member present => absurd present List.not_mem_nil
      refine ((leaves tail).and (takes tail)).bind fun first read => ?_
      refine ((parseEntries_leaves leaves turns first.2).and
        (inductionHypothesis first.2)).bind fun rest later => ?_
      have firstLength := read.1.length_le
      have restLength := later.1.length_le
      intro member present named
      change rest.2.length + 7 ≤ tail.length + 1
      cases List.mem_cons.mp present with
      | inl equal =>
          subst equal
          have enough := (read.2 named).1
          omega
      | inr behind =>
          have enough := later.2 member behind named
          omega

/-- What is read between the brackets: nothing, or a first entry and those that
follow it. -/
theorem parseContainer_cases
    {opening closing : UInt8}
    {value rest : Bytes}
    {children : List CJSON}
    (read : parseContainer opening closing entry value = .ok (children, rest)) :
    ∃ body start, value = opening :: body ∧ skip body = .ok start ∧
      ((children = [] ∧ start = closing :: rest) ∨
        ∃ child after more,
          entry start = .ok (child, after) ∧
            parseEntries entry after.length after = .ok (more, closing :: rest) ∧
            children = child :: more) := by
  obtain ⟨byte, peeked, read⟩ := Outcome.bind_eq_ok_iff.mp read
  obtain ⟨body, rfl⟩ := (peek_returns value).of_eq_ok peeked
  by_cases opens : byte = opening
  · subst opens
    rw [if_neg (not_not.mpr rfl)] at read
    obtain ⟨start, skipped, read⟩ := Outcome.bind_eq_ok_iff.mp read
    refine ⟨body, start, rfl, skipped, ?_⟩
    obtain ⟨next, peeked, read⟩ := Outcome.bind_eq_ok_iff.mp read
    obtain ⟨inside, rfl⟩ := (peek_returns start).of_eq_ok peeked
    by_cases closes : next = closing
    · subst closes
      rw [if_pos rfl] at read
      cases read
      exact .inl ⟨rfl, rfl⟩
    · rw [if_neg closes] at read
      obtain ⟨⟨child, after⟩, entryRead, read⟩ := Outcome.bind_eq_ok_iff.mp read
      obtain ⟨⟨more, ending⟩, entriesRead, read⟩ := Outcome.bind_eq_ok_iff.mp read
      obtain ⟨last, peeked, read⟩ := Outcome.bind_eq_ok_iff.mp read
      obtain ⟨tail, rfl⟩ := (peek_returns ending).of_eq_ok peeked
      by_cases closed : last = closing
      · subst closed
        rw [if_pos rfl] at read
        cases read
        exact .inr ⟨child, after, more, entryRead, entriesRead, rfl⟩
      · rw [if_neg closed] at read
        cases read
  · rw [if_pos opens] at read
    cases read

/-- Between the brackets there is room for every member. -/
theorem parseContainer_takes
    {opening closing : UInt8}
    {value rest : Bytes}
    {children : List CJSON}
    (leaves : EntryLeaves entry)
    (takes : EntryTakes entry)
    (read : parseContainer opening closing entry value = .ok (children, rest)) :
    ∃ body start, value = opening :: body ∧ skip body = .ok start ∧
      closing :: rest <:+ start ∧
      ∀ member ∈ children, NumberNamed member →
        rest.length + 7 ≤ start.length ∧
          (start.length = rest.length + 7 → member.valueint.toInt ≤ 9) := by
  obtain ⟨body, start, spelled, skipped, empty | entries⟩ :=
    parseContainer_cases read
  · obtain ⟨rfl, rfl⟩ := empty
    exact ⟨body, _, spelled, skipped, List.suffix_refl _,
      fun member present => absurd present List.not_mem_nil⟩
  · obtain ⟨child, after, more, entryRead, entriesRead, rfl⟩ := entries
    have afterWithin := (leaves _).of_eq_ok entryRead
    have endingWithin := (parseEntries_leaves leaves _ _).of_eq_ok entriesRead
    refine ⟨body, start, spelled, skipped, endingWithin.trans afterWithin, ?_⟩
    intro member present named
    have afterLength := afterWithin.length_le
    have endingLength := endingWithin.length_le
    dsimp only [List.length_cons] at afterLength endingLength
    cases List.mem_cons.mp present with
    | inl equal =>
        subst equal
        obtain ⟨enough, exactly⟩ := (takes _).of_eq_ok entryRead named
        dsimp only at enough exactly
        exact ⟨by omega, fun shortest => exactly (by omega)⟩
    | inr behind =>
        have enough := (parseEntries_takes leaves takes _ _).of_eq_ok
          entriesRead member behind named
        dsimp only [List.length_cons] at enough
        exact ⟨by omega, fun shortest => absurd shortest (by omega)⟩

end Members

/-- What a part returns, it returns. -/
theorem returns_self (outcome : Except ParseError α) :
    Returns (fun result => outcome = .ok result) outcome := by
  cases outcome with
  | ok result => rfl
  | error error => trivial

/-- An object is read from its opening brace to its closing brace, and between
them there is room for every member with a number. -/
theorem parseValue_object
    (depth : Nat)
    (item : CJSON)
    (value : Bytes) :
    Returns
      (fun result => result.1.type = .object →
        ∃ body start ending, value = openBrace :: body ∧
          skip body = .ok start ∧ closeBrace :: ending <:+ start ∧
          ∀ member ∈ result.1.child, NumberNamed member →
            ending.length + 7 ≤ start.length ∧
              (start.length = ending.length + 7 → member.valueint.toInt ≤ 9))
      (parseValue depth item value) := by
  cases depth with
  | zero => trivial
  | succ depth =>
      refine parseValue_meets trivial trivial CJSONType.noConfusion
        CJSONType.noConfusion CJSONType.noConfusion ?string ?number ?array ?object
      case string =>
        refine (parseString_returns item value).mono fun result named isObject => ?_
        rw [named.1] at isObject
        cases isObject
      case number =>
        intro _ _ _ _
        iterate 4 refine (returns_true _).bind fun _ _ => ?_
        exact CJSONType.noConfusion
      case array =>
        exact (returns_true _).bind fun _ _ => CJSONType.noConfusion
      case object =>
        refine (returns_self _).bind fun result read _ => ?_
        have leaves := parseValue_leaves depth
        obtain ⟨body, start, spelled, skipped, closes, room⟩ :=
          parseContainer_takes (parseMember_leaves leaves)
            (parseMember_takes leaves (parseValue_builds depth)
              (parseValue_takes depth))
            read
        exact ⟨body, start, result.2, spelled, skipped, closes, room⟩

end CJSON
end ProtobufSandbox
