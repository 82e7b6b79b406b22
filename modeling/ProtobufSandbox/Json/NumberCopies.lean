import ProtobufSandbox.Json.Merge

/-!
# Numbers in copies

A number that is copied by itself keeps its value. One inside an array or object
goes through its text, and keeps its value exactly if the format that is chosen
for it prints it in full.
-/

namespace ProtobufSandbox

/-! ## Numbers that are printed in full -/

/-- The number is an integer. -/
def IsWhole (number : Rat) : Prop :=
  number.den = 1

instance IsWhole.decidable (number : Rat) : Decidable (IsWhole number) :=
  inferInstanceAs (Decidable (_ = _))

theorem isWhole_iff (number : Rat) :
    IsWhole number ↔ ∃ whole : Int, number = whole := by
  rw [IsWhole, Rat.den_eq_one_iff]
  constructor
  · exact fun same => ⟨number.num, same.symm⟩
  · rintro ⟨whole, rfl⟩
    rw [Rat.num_intCast]

theorem isWhole_intCast (whole : Int) : IsWhole whole :=
  (isWhole_iff whole).mpr ⟨whole, rfl⟩

theorem isWhole_abs_iff (number : Rat) : IsWhole |number| ↔ IsWhole number := by
  unfold IsWhole
  rcases abs_choice number with same | negated
  · rw [same]
  · rw [negated, Rat.neg_den]

/-- Rounding leaves exactly the integers as they are. -/
theorem roundHalfEven_eq_iff
    {number : Rat}
    (nonneg : 0 ≤ number) :
    (roundHalfEven number : Rat) = number ↔ IsWhole number := by
  constructor
  · exact fun same => same ▸ isWhole_intCast (roundHalfEven number)
  · intro whole
    obtain ⟨integer, rfl⟩ := (isWhole_iff number).mp whole
    have integerNonneg : 0 ≤ integer := by exact_mod_cast nonneg
    obtain ⟨natural, rfl⟩ := Int.eq_ofNat_of_zero_le integerNonneg
    have below : (((natural : Int) : Rat).floor).toNat = natural := by
      rw [Rat.floor_intCast, Int.toNat_natCast]
    have remainder : ((natural : Int) : Rat) - ((natural : Nat) : Rat) < 1 / 2 := by
      norm_num
    rw [roundHalfEven, below, if_pos (.inl remainder)]
    rfl

theorem signFactor_mul_abs (number : Rat) : signFactor number * |number| = number := by
  unfold signFactor
  split
  · next negative => rw [abs_of_neg negative, neg_one_mul, neg_neg]
  · next nonneg => rw [abs_of_nonneg (not_lt.mp nonneg), one_mul]

/-- A sign does not matter to whether a magnitude is right. -/
theorem signFactor_mul_eq_iff (number magnitude : Rat) :
    signFactor number * magnitude = number ↔ magnitude = |number| := by
  have nonzero : signFactor number ≠ 0 := by
    unfold signFactor
    split <;> norm_num
  constructor
  · intro same
    exact mul_left_cancel₀ nonzero (same.trans (signFactor_mul_abs number).symm)
  · rintro rfl
    exact signFactor_mul_abs number

/-- The digits and the exponent of `"%e"` are the rounded number. -/
theorem scientific_value (number : Rat) :
    ((scientific number).1 : Rat) * 10 ^ ((scientific number).2 - 6) =
      roundHalfEven (|number| / 10 ^ Int.log 10 |number| * 10 ^ 6) *
        10 ^ (Int.log 10 |number| - 6) := by
  unfold scientific
  dsimp only
  by_cases carried :
      roundHalfEven (|number| / 10 ^ Int.log 10 |number| * 10 ^ 6) = 10 ^ 7
  · have shifted : Int.log 10 |number| + 1 - 6 = Int.log 10 |number| - 6 + 1 := by
      ring
    rw [decide_eq_true carried, carried, if_pos rfl, if_pos rfl, shifted,
      zpow_add_one₀ (by norm_num)]
    push_cast
    ring
  · rw [decide_eq_false carried]
    rfl

namespace CJSON

/-- The format that prints a number, prints it in full. Near an integer that is the
integer, below `10 ^ (-6)` and above `10 ^ 9` there are seven digits, and else
there are six decimals. -/
def PrintedInFull (valueint : Int32) (valuedouble : Rat) : Prop :=
  if |(valueint.toInt : Rat) - valuedouble| ≤ dblEpsilon ∧
        valuedouble ≤ Int32.maxValue.toInt ∧ Int32.minValue.toInt ≤ valuedouble ∨
      |(valuedouble.floor : Rat) - valuedouble| ≤ dblEpsilon ∧
        |valuedouble| < 10 ^ 60 then
    IsWhole valuedouble
  else if |valuedouble| < 1 / 10 ^ 6 ∨ 10 ^ 9 < |valuedouble| then
    IsWhole (valuedouble * 10 ^ (6 - Int.log 10 |valuedouble|))
  else IsWhole (valuedouble * 10 ^ 6)

/-- A number that is near an integer is an integer only if it is that one. -/
theorem isWhole_iff_of_near
    {number : Rat}
    {whole : Int}
    (near : |(whole : Rat) - number| ≤ dblEpsilon) :
    IsWhole number ↔ (whole : Rat) = number := by
  constructor
  · intro isWhole
    obtain ⟨other, rfl⟩ := (isWhole_iff number).mp isWhole
    have small : |whole - other| < 1 := by
      have bound : |(whole : Rat) - other| < 1 :=
        lt_of_le_of_lt near (by norm_num [dblEpsilon])
      exact_mod_cast bound
    rw [Int.abs_lt_one_iff] at small
    rw [sub_eq_zero.mp small]
  · exact fun same => same ▸ isWhole_intCast whole

/-- A rounded multiple of a magnitude, divided again, is the number exactly if the
multiple of the number is an integer. -/
theorem roundHalfEven_mul_eq_iff
    {number factor : Rat}
    (positive : 0 < factor) :
    signFactor number * roundHalfEven (|number| * factor) * factor⁻¹ = number ↔
      IsWhole (number * factor) := by
  have nonzero : factor ≠ 0 := positive.ne'
  have magnitude : |number * factor| = |number| * factor := by
    rw [abs_mul, abs_of_pos positive]
  rw [mul_assoc, signFactor_mul_eq_iff, mul_inv_eq_iff_eq_mul₀ nonzero, ← magnitude,
    roundHalfEven_eq_iff (abs_nonneg _), isWhole_abs_iff]

/-- The text of a number stands for the number exactly if it is printed in full. -/
theorem printedValue_eq_iff (item : CJSON) :
    item.printedValue = item.valuedouble ↔
      PrintedInFull item.valueint item.valuedouble := by
  unfold printedValue PrintedInFull
  dsimp only
  by_cases integer : |(item.valueint.toInt : Rat) - item.valuedouble| ≤ dblEpsilon ∧
      item.valuedouble ≤ Int32.maxValue.toInt ∧
        Int32.minValue.toInt ≤ item.valuedouble
  · rw [if_pos integer, if_pos (.inl integer), isWhole_iff_of_near integer.1]
  by_cases whole : |(item.valuedouble.floor : Rat) - item.valuedouble| ≤ dblEpsilon ∧
      |item.valuedouble| < 10 ^ 60
  · rw [if_neg integer, if_pos whole, if_pos (.inr whole), signFactor_mul_eq_iff,
      roundHalfEven_eq_iff (abs_nonneg _), isWhole_abs_iff]
  rw [if_neg integer, if_neg whole, if_neg (not_or.mpr ⟨integer, whole⟩)]
  by_cases exponent : |item.valuedouble| < 1 / 10 ^ 6 ∨ 10 ^ 9 < |item.valuedouble|
  · have scale : (10 : Rat) ^ (6 - Int.log 10 |item.valuedouble|) =
        (10 ^ Int.log 10 |item.valuedouble|)⁻¹ * 10 ^ 6 := by
      rw [zpow_sub₀ (by norm_num), div_eq_inv_mul]
      norm_cast
    have inverse : (10 : Rat) ^ (Int.log 10 |item.valuedouble| - 6) =
        ((10 : Rat) ^ (6 - Int.log 10 |item.valuedouble|))⁻¹ := by
      rw [← zpow_neg, neg_sub]
    rw [if_pos exponent, if_pos exponent, mul_assoc, scientific_value, inverse,
      div_eq_mul_inv, mul_assoc |item.valuedouble|, ← scale, ← mul_assoc]
    exact roundHalfEven_mul_eq_iff (zpow_pos (by norm_num) _)
  · have inverse : (10 : Rat) ^ (-6 : Int) = (10 ^ 6)⁻¹ := by
      rw [zpow_neg]
      norm_cast
    rw [if_neg exponent, if_neg exponent, inverse]
    exact roundHalfEven_mul_eq_iff (by norm_num)

end CJSON

/-! ## Places in a tree -/

/-- What a tree says at a place, given by the position in each array or object on
the way. -/
def Content.at? : Content → List Nat → Option Content
  | content, [] => some content
  | .array entries, index :: place | .object entries, index :: place =>
      entries[index]?.bind fun entry => entry.2.at? place
  | .false, _ :: _ | .true, _ :: _ | .null, _ :: _ | .number _ _, _ :: _
  | .string _, _ :: _ => none

namespace CJSON

/-- The value of a number inside an array or object that is copied. -/
def copiedValue (valueint : Int32) (valuedouble : Rat) : Rat :=
  printedValue { newItem with
    type := .number, valueint := valueint, valuedouble := valuedouble }

/-- A place in an array or object is a place in one of its children. -/
theorem at?_of_isContainer
    {item : CJSON}
    (container : item.IsContainer)
    (index : Nat)
    (place : List Nat) :
    item.content.at? (index :: place) =
      item.child[index]?.bind fun child => child.content.at? place := by
  rcases container with array | object
  · rw [content_array array, Content.at?, contents_eq_map, List.getElem?_map,
      Option.bind_map]
    rfl
  · rw [content_object object, Content.at?, contents_eq_map, List.getElem?_map,
      Option.bind_map]
    rfl

theorem at?_reread_of_isContainer
    {item : CJSON}
    (container : item.IsContainer)
    (index : Nat)
    (place : List Nat) :
    item.reread.content.at? (index :: place) =
      item.child[index]?.bind fun child => child.reread.content.at? place := by
  rcases container with array | object
  · rw [reread_array array, Content.at?, contents_eq_map, List.map_map,
      List.getElem?_map, Option.bind_map]
    simp only [Function.comp_def, content_with_string]
  · rw [reread_object object, Content.at?, contents_eq_map, List.map_map,
      List.getElem?_map, Option.bind_map]
    rfl

/-- A scalar has no places in it. -/
theorem isContainer_of_at?
    {item : CJSON}
    {index : Nat}
    {place : List Nat}
    {found : Content}
    (there : item.content.at? (index :: place) = some found) :
    item.IsContainer := by
  by_contra scalar
  obtain ⟨child, type, valuestring, valueint, valuedouble, string⟩ := item
  cases type <;> simp_all [content, Content.at?, IsContainer]

/-- A number is read back at its place, with the value that its text stands
for. -/
theorem reread_at?
    {item : CJSON}
    {place : List Nat}
    {valueint : Int32}
    {valuedouble : Rat}
    (there : item.content.at? place = some (.number valueint valuedouble)) :
    item.reread.content.at? place =
      some (.number (toInt (copiedValue valueint valuedouble))
        (copiedValue valueint valuedouble)) := by
  induction place generalizing item with
  | nil =>
      have number : item.type = .number := by
        obtain ⟨child, type, string, int, double, own⟩ := item
        cases type <;> simp_all [content, Content.at?]
      rw [content_number number] at there
      obtain ⟨rfl, rfl⟩ : item.valueint = valueint ∧ item.valuedouble = valuedouble := by
        simpa [Content.at?] using there
      rw [reread_number number]
      rfl
  | cons index place inductionHypothesis =>
      have container := isContainer_of_at? there
      rw [at?_of_isContainer container] at there
      obtain ⟨child, isChild, below⟩ := Option.bind_eq_some_iff.mp there
      rw [at?_reread_of_isContainer container, isChild, Option.bind_some]
      exact inductionHypothesis below

/-! ## What is installed -/

/-- The object has a member with the name, and in it the number at the place. -/
def HoldsNumber
    (object : CJSON)
    (key : CString)
    (place : List Nat)
    (value : Rat) : Prop :=
  ∃ member ∈ object.child, member.string = some key ∧
    member.content.at? place = some (.number (toInt value) value)

/-- The value of a number in a copy: its own if it is the whole item, and that of
its text inside an array or object. -/
def valueInCopy (place : List Nat) (valueint : Int32) (valuedouble : Rat) : Rat :=
  if place = [] then valuedouble else copiedValue valueint valuedouble

/-- A copy keeps its number exactly if that is the whole item or is printed in
full. -/
theorem valueInCopy_eq_iff
    (place : List Nat)
    (valueint : Int32)
    (valuedouble : Rat) :
    valueInCopy place valueint valuedouble = valuedouble ↔
      place = [] ∨ PrintedInFull valueint valuedouble := by
  unfold valueInCopy
  by_cases whole : place = []
  · rw [if_pos whole]
    exact iff_of_true rfl (.inl whole)
  · rw [if_neg whole, or_iff_right whole]
    exact printedValue_eq_iff _

/-- A copy has the number at its place. -/
theorem IsCopy.at?
    {item copy : CJSON}
    {place : List Nat}
    {valueint : Int32}
    {valuedouble : Rat}
    (isCopy : IsCopy item copy)
    (printable : item.Printable)
    (there : item.content.at? place = some (.number valueint valuedouble)) :
    copy.content.at? place =
      some (.number (toInt (valueInCopy place valueint valuedouble))
        (valueInCopy place valueint valuedouble)) := by
  cases place with
  | nil =>
      have number : item.type = .number := by
        obtain ⟨child, type, string, int, double, own⟩ := item
        cases type <;> simp_all [content, Content.at?]
      rw [content_number number] at there
      obtain ⟨rfl, rfl⟩ :
          item.valueint = valueint ∧ item.valuedouble = valuedouble := by
        simpa [Content.at?] using there
      cases isCopy with
      | scalar scalar string type value text =>
          obtain ⟨double, int⟩ := value number
          rw [content_number (type.trans number), double, int]
          rfl
      | tree container parsed =>
          rcases container with array | object
          · cases number.symm.trans array
          · cases number.symm.trans object
  | cons index place =>
      have isContainer := isContainer_of_at? there
      cases isCopy with
      | scalar scalar => exact absurd isContainer scalar
      | tree container parsed =>
          have notNumber : item.type = .number → Delimited [0] := by
            intro number
            rcases container with array | object
            · cases number.symm.trans array
            · cases number.symm.trans object
          obtain ⟨child, read, -, sameContent⟩ :=
            parse_printValue_reread printable true notNumber
          obtain rfl : child = _ := Except.ok.inj (read.symm.trans parsed)
          rw [content_with_string, sameContent, reread_at? there]
          rfl

/-- A copy is installed in any object. -/
theorem exists_install
    {object : CJSON}
    (isObject : object.type = .object)
    (next : List CJSON)
    (key : CString)
    (new : CJSON) :
    ∃ after, install (object :: next) key (some new) = .ok (after :: next) ∧
      { new with string := some key } ∈ after.child := by
  unfold install
  rw [doesAttributeExist_of_container (Or.inr isObject), Outcome.ok_bind]
  by_cases member : object.HasMember key
  · obtain ⟨which, first⟩ := exists_indexLike_of_mem member.2
    obtain ⟨old, there, -⟩ := exists_of_indexLike first
    obtain ⟨inRange, -⟩ := List.getElem?_eq_some_iff.mp there
    simp only [decide_eq_true member, if_true, replaceItemInObject, first,
      Outcome.ok_bind]
    exact ⟨_, rfl, List.mem_set inRange _⟩
  · simp only [decide_eq_false member, Bool.false_eq_true, if_false]
    exact ⟨_, rfl, List.mem_append_right _ List.mem_cons_self⟩

/-- A number keeps its value in what `mergeJSONObjects` and `copyItem` install
exactly if it is an item of its own or is printed in full. -/
theorem number_copied_iff
    {target item : CJSON}
    {key : CString}
    {place : List Nat}
    {valueint : Int32}
    {valuedouble : Rat}
    (isObject : target.type = .object)
    (named : item.string = some key)
    (notEmpty : key.val ≠ [])
    (printable : item.Printable)
    (there : item.content.at? place = some (.number valueint valuedouble))
    (next : List CJSON) :
    ∃ value,
      (value = valuedouble ↔ place = [] ∨ PrintedInFull valueint valuedouble) ∧
      (∃ merged, HoldsNumber merged key place value ∧
        ∀ (source : CJSON) items siblings,
          mergeJSONObjects (target :: next)
              ({ source with child := item :: items } :: siblings) =
            mergeJSONObjects (merged :: next)
              ({ source with child := items } :: siblings)) ∧
      ∀ (source : CJSON) sourceKey siblings targetKey,
        source.getObjectItem sourceKey = item :: siblings →
          ∃ copied,
            copyItem (target :: next) targetKey source sourceKey =
                .ok (true, copied :: next) ∧
              HoldsNumber copied targetKey place value := by
  obtain ⟨new, made, isCopy⟩ := exists_copyOf printable
  have holds := isCopy.at? printable there
  rw [content_with_string] at holds
  refine ⟨valueInCopy place valueint valuedouble,
    valueInCopy_eq_iff place valueint valuedouble, ?_, ?_⟩
  · obtain ⟨merged, installed, isMember⟩ := exists_install isObject next key new
    refine ⟨merged, ⟨_, isMember, rfl, ?_⟩, fun source items siblings => ?_⟩
    · rw [content_with_string, holds]
    · simp only [mergeJSONObjects, mergeItems, named, if_neg notEmpty, made,
        installed, Outcome.ok_bind]
  · intro source sourceKey siblings targetKey looked
    obtain ⟨copied, installed, isMember⟩ :=
      exists_install isObject next targetKey new
    refine ⟨copied, ?_, ⟨_, isMember, rfl, ?_⟩⟩
    · simp only [copyItem, looked, made, installed, Outcome.ok_bind]
      rfl
    · rw [content_with_string, holds]

/-- An item that is neither a string nor an object is written in full. -/
theorem printableNode_of_type
    {item : CJSON}
    {type : CJSONType}
    (isType : item.type = type)
    (notString : type ≠ .string)
    (notObject : type ≠ .object) :
    item.PrintableNode where
  string string := absurd (isType.symm.trans string) notString
  members object := absurd (isType.symm.trans object) notObject

/-- The member `a` of an object, an array of one number. -/
def arrayOfNumber (valuedouble : Rat) : CJSON :=
  { newItem with
    type := .array, child := [createNumber valuedouble],
    string := some (keyOf ['a']) }

theorem printable_arrayOfNumber (valuedouble : Rat) :
    (arrayOfNumber valuedouble).Printable := by
  intro node below
  have container : (arrayOfNumber valuedouble).IsContainer := .inl rfl
  rw [nodes_eq, if_pos container] at below
  have isNode : node = arrayOfNumber valuedouble ∨ node = createNumber valuedouble := by
    simpa [arrayOfNumber, nodesOf, createNumber, nodes] using below
  rcases isNode with rfl | rfl
  · exact @printableNode_of_type _ .array rfl (by decide) (by decide)
  · exact @printableNode_of_type _ .number rfl (by decide) (by decide)

theorem not_printedInFull_seven_decimals :
    ¬ PrintedInFull (toInt (1234567 / 10 ^ 7)) (1234567 / 10 ^ 7) := by
  have notNear : ¬ ((|((toInt (1234567 / 10 ^ 7)).toInt : Rat) - 1234567 / 10 ^ 7| ≤
        dblEpsilon ∧ (1234567 / 10 ^ 7 : Rat) ≤ Int32.maxValue.toInt ∧
          (Int32.minValue.toInt : Rat) ≤ 1234567 / 10 ^ 7) ∨
      |((1234567 / 10 ^ 7 : Rat).floor : Rat) - 1234567 / 10 ^ 7| ≤ dblEpsilon ∧
        |(1234567 / 10 ^ 7 : Rat)| < 10 ^ 60) := by
    decide +kernel
  have inRange : ¬ (|(1234567 / 10 ^ 7 : Rat)| < 1 / 10 ^ 6 ∨
      10 ^ 9 < |(1234567 / 10 ^ 7 : Rat)|) := by
    decide +kernel
  rw [PrintedInFull, if_neg notNear, if_neg inRange]
  decide +kernel

/-- The number `0.1234567` in an array is not copied as it is. -/
theorem not_number_copied_seven_decimals :
    ∃ merged,
      mergeJSONObjects [createObject]
          [{ createObject with child := [arrayOfNumber (1234567 / 10 ^ 7)] }] =
        .ok (true, [merged]) ∧
      ¬ HoldsNumber merged (keyOf ['a']) [0] (1234567 / 10 ^ 7) := by
  obtain ⟨new, made, isCopy⟩ :=
    exists_copyOf (printable_arrayOfNumber (1234567 / 10 ^ 7))
  refine ⟨createObject.addItemToObject (keyOf ['a']) (some new), ?_, ?_⟩
  · have notEmpty : (keyOf ['a']).val ≠ [] := by decide
    have named : (arrayOfNumber (1234567 / 10 ^ 7)).string = some (keyOf ['a']) := rfl
    have installed : install [createObject] (keyOf ['a']) (some new) =
        .ok [createObject.addItemToObject (keyOf ['a']) (some new)] := rfl
    simp only [mergeJSONObjects, mergeItems, named, if_neg notEmpty, made, installed,
      Outcome.ok_bind]
    rfl
  · rintro ⟨member, isMember, -, holds⟩
    obtain rfl := List.mem_singleton.mp isMember
    have there : (arrayOfNumber (1234567 / 10 ^ 7)).content.at? [0] =
        some (.number (toInt (1234567 / 10 ^ 7)) (1234567 / 10 ^ 7)) := rfl
    have other := isCopy.at? (printable_arrayOfNumber (1234567 / 10 ^ 7)) there
    rw [content_with_string] at other holds
    have same := Option.some.inj (other.symm.trans holds)
    rw [Content.number.injEq, valueInCopy_eq_iff] at same
    exact same.2.elim (by decide) not_printedInFull_seven_decimals

/-- The number `0.5` in an array is copied as it is. -/
theorem number_copied_one_half :
    ∃ value,
      (value = 1 / 2 ↔ [0] = [] ∨ PrintedInFull (toInt (1 / 2)) (1 / 2)) ∧
      (∃ merged, HoldsNumber merged (keyOf ['a']) [0] value ∧
        ∀ (source : CJSON) items siblings,
          mergeJSONObjects [createObject]
              ({ source with child := arrayOfNumber (1 / 2) :: items } :: siblings) =
            mergeJSONObjects [merged] ({ source with child := items } :: siblings)) ∧
      ∀ (source : CJSON) sourceKey siblings targetKey,
        source.getObjectItem sourceKey = arrayOfNumber (1 / 2) :: siblings →
          ∃ copied,
            copyItem [createObject] targetKey source sourceKey =
                .ok (true, [copied]) ∧
              HoldsNumber copied targetKey [0] value :=
  number_copied_iff rfl rfl (by decide) (printable_arrayOfNumber (1 / 2)) rfl []

end CJSON
end ProtobufSandbox
