import ProtobufSandbox.Json.NumberAccuracy
import ProtobufSandbox.Json.ValueMeaning

/-!
# What a printed text means

The printer writes texts of the grammar: the text of a tree stands for what the tree
says, formatted or not. Numbers are those that their texts stand for, and strings are
those that are UTF-8.
-/

namespace ProtobufSandbox

open JsonText CJSON

/-! ## What a tree says -/

mutual

/-- A value that an item says, when its strings are characters. -/
inductive Says : CJSON → Value → Prop
  | null
      {item : CJSON}
      (isNull : item.type = .null) : Says item .null
  | isFalse
      {item : CJSON}
      (isFalse : item.type = .false) : Says item (.bool false)
  | isTrue
      {item : CJSON}
      (isTrue : item.type = .true) : Says item (.bool true)
  | number
      {item : CJSON}
      (isNumber : item.type = .number) : Says item (.number item.printedValue)
  | string
      {item : CJSON}
      {chars : List Char}
      (isString : item.type = .string)
      (valuestring : item.valuestring = some (CString.ofChars chars))
      (present : Char.ofNat 0 ∉ chars) : Says item (.string chars)
  | array
      {item : CJSON}
      {elements : List Value}
      (isArray : item.type = .array)
      (isSaid : SaysElements item.child elements) : Says item (.array elements)
  | object
      {item : CJSON}
      {members : List (List Char × Value)}
      (isObject : item.type = .object)
      (isSaid : SaysMembers item.child members) : Says item (.object members)

inductive SaysElements : List CJSON → List Value → Prop
  | nil : SaysElements [] []
  | cons
      {item : CJSON}
      {items : List CJSON}
      {element : Value}
      {elements : List Value}
      (isSaid : Says item element)
      (others : SaysElements items elements) :
      SaysElements (item :: items) (element :: elements)

inductive SaysMembers : List CJSON → List (List Char × Value) → Prop
  | nil : SaysMembers [] []
  | cons
      {item : CJSON}
      {items : List CJSON}
      {name : List Char}
      {value : Value}
      {members : List (List Char × Value)}
      (string : item.string = some (CString.ofChars name))
      (present : Char.ofNat 0 ∉ name)
      (isSaid : Says item value)
      (others : SaysMembers items members) :
      SaysMembers (item :: items) ((name, value) :: members)

end

/-! ## Numbers -/

theorem sign_signOf (number : Rat) : JsonText.Sign (signOf number) (signFactor number) := by
  unfold signOf signFactor
  split
  · exact .minus
  · exact .plus

theorem digits_digits (value : Nat) : Digits (Decimal.digits value) :=
  fun _ present => Decimal.isDigit_of_mem_digits present

theorem digits_padded (width value : Nat) : Digits (padded width value) :=
  fun _ present => isDigit_of_mem_padded present

theorem whole_digits (value : Nat) : Whole (Decimal.digits value) := by
  rcases Nat.eq_zero_or_pos value with rfl | positive
  · exact .zero
  · obtain ⟨first, others, spelled, range⟩ :=
      Decimal.exists_digits_eq_cons_of_pos positive
    have areDigits := digits_digits value
    rw [spelled] at areDigits ⊢
    exact .digits range fun byte present => areDigits byte (List.mem_cons_of_mem _ present)

theorem valueOf_digits (value : Nat) : valueOf (Decimal.digits value) = value :=
  Decimal.foldl_extend_digits value

theorem valueOf_padded (width value : Nat) : valueOf (padded width value) = value :=
  foldl_extend_padded width value

/-- The digits in front of the point and those behind it. -/
theorem valueOf_append_padded (value : Nat) :
    valueOf (Decimal.digits (value / 10 ^ 6) ++ padded 6 (value % 10 ^ 6)) = value := by
  have small : value % 10 ^ 6 < 10 ^ 6 := Nat.mod_lt value (by decide)
  have read : valueOf (padded 6 (value % 10 ^ 6)) = value % 10 ^ 6 := valueOf_padded 6 _
  have whole := valueOf_digits (value / 10 ^ 6)
  unfold valueOf at read whole ⊢
  rw [List.foldl_append, Decimal.foldl_extend_eq_add, whole, read,
    length_padded (by decide) small]
  exact Nat.div_add_mod' value (10 ^ 6)

theorem padded_ne_nil (width value : Nat) : padded width value ≠ [] := by
  obtain ⟨first, others, spelled, -⟩ := Decimal.exists_digits_eq_cons value
  rw [padded, spelled]
  exact List.append_ne_nil_of_right_ne_nil _ (List.cons_ne_nil _ _)

/-- A number without a point. -/
theorem number_whole
    {sign : Bytes}
    {factor : Rat}
    (isSign : JsonText.Sign sign factor)
    (value : Nat) :
    Number anyNumeral (sign ++ Decimal.digits value) (factor * value) := by
  have isNumber := @Number.parts anyNumeral _ _ _ _ _ _ _ isSign (whole_digits value) .none .none
    trivial
  rw [List.append_nil, List.append_nil, valueOf_digits, List.length_nil, Nat.cast_zero,
    sub_zero, zpow_zero, mul_one] at isNumber
  exact isNumber

/-- A number with six digits behind the point. -/
theorem number_fixed
    (d : Rat)
    (value : Nat)
    {exponent : Bytes}
    {power : Int}
    (isExponent : Exponent exponent power) :
    Number anyNumeral (signOf d ++ (Decimal.digits (value / 10 ^ 6) ++
        (point :: padded 6 (value % 10 ^ 6) ++ exponent)))
      (signFactor d * value * 10 ^ (power - 6)) := by
  have isNumber := @Number.parts anyNumeral _ _ _ _ _ _ _ (sign_signOf d)
    (whole_digits (value / 10 ^ 6))
    (.digits (padded_ne_nil 6 (value % 10 ^ 6)) (digits_padded 6 _)) isExponent trivial
  rw [valueOf_append_padded, length_padded (by decide) (Nat.mod_lt value (by decide))]
    at isNumber
  exact isNumber

theorem exponent_signed (power : Int) :
    Exponent (ascii ['e', if power < 0 then '-' else '+'] ++ padded 2 power.natAbs) power := by
  have some := padded_ne_nil 2 power.natAbs
  have areDigits := digits_padded 2 power.natAbs
  have value := valueOf_padded 2 power.natAbs
  by_cases negative : power < 0
  · have isExponent := Exponent.digits (.inl rfl) .minus some areDigits
    have same : (-1) * ((valueOf (padded 2 power.natAbs) : Nat) : Int) = power := by
      rw [value]
      omega
    rw [same] at isExponent
    rw [if_pos negative]
    exact isExponent
  · have isExponent := Exponent.digits (.inl rfl) .plus some areDigits
    have same : 1 * ((valueOf (padded 2 power.natAbs) : Nat) : Int) = power := by
      rw [value]
      omega
    rw [same] at isExponent
    rw [if_neg negative]
    exact isExponent

/-- The text of a number is one. -/
theorem number_printNumber (item : CJSON) : Number anyNumeral item.printNumber item.printedValue := by
  unfold printNumber printedValue
  dsimp only
  split_ifs with integer whole exponent
  · unfold formatInt
    split
    · next negative =>
        have isNumber := number_whole .minus item.valueint.toInt.natAbs
        rw [neg_one_mul, Nat.cast_natAbs, abs_of_neg negative, Int.cast_neg, neg_neg]
          at isNumber
        exact isNumber
    · next notNegative =>
        have isNumber := number_whole .plus item.valueint.toInt.natAbs
        rw [one_mul, Nat.cast_natAbs, abs_of_nonneg (not_lt.mp notNegative)] at isNumber
        exact isNumber
  · exact number_whole (sign_signOf item.valuedouble) _
  · have isNumber := number_fixed item.valuedouble (scientific item.valuedouble).1
      (exponent_signed (scientific item.valuedouble).2)
    rw [formatExponent_eq]
    exact isNumber
  · have isNumber := number_fixed item.valuedouble
      (roundHalfEven (|item.valuedouble| * 10 ^ 6)) .none
    rw [List.append_nil, zero_sub, ← List.append_assoc] at isNumber
    exact isNumber

/-! ## Strings -/

theorem utf8EncodeChar_ofNat :
    ∀ byte : UInt8, byte < 0x80 → String.utf8EncodeChar (Char.ofNat byte.toNat) = [byte] :=
  forall_byte (by decide)

theorem toNat_ofNat_byte :
    ∀ byte : UInt8, byte < 0x80 → (Char.ofNat byte.toNat).toNat = byte.toNat :=
  forall_byte (by decide)

theorem hexValue?_lowerHex :
    ∀ value : UInt8, value < 16 → hexValue? (lowerHex value) = some value.toNat :=
  forall_byte (by decide)

/-- The number of a byte as `%04x` writes it. -/
theorem hex4_lowerHex (byte : UInt8) :
    Hex4 [zeroDigit, zeroDigit, lowerHex (byte / 16), lowerHex (byte % 16)] byte.toNat := by
  have isNumber : Hex4 _ ((((0 * 16 + 0) * 16) + (byte / 16).toNat) * 16 + (byte % 16).toNat) :=
    @Hex4.digits zeroDigit zeroDigit (lowerHex (byte / 16)) (lowerHex (byte % 16)) 0 0 _ _ rfl rfl
      (hexValue?_lowerHex _ (halves_lt byte).1) (hexValue?_lowerHex _ (halves_lt byte).2)
  have whole : (((0 * 16 + 0) * 16) + (byte / 16).toNat) * 16 + (byte % 16).toNat =
      byte.toNat := by
    have sixteen : (16 : UInt8).toNat = 16 := rfl
    rw [UInt8.toNat_div, UInt8.toNat_mod, sixteen]
    omega
  rw [whole] at isNumber
  exact isNumber

/-- What the printer writes for a byte of a character. -/
theorem characters_escape
    {byte : UInt8}
    (nonzero : byte ≠ 0)
    (isAscii : byte < 0x80)
    {text : Bytes}
    {chars : List Char}
    (others : JsonText.Characters text chars) :
    JsonText.Characters (escape byte ++ text) (Char.ofNat byte.toNat :: chars) := by
  unfold escape
  split_ifs with plain isBackslash isQuote isBackspace isFeed isNewline isReturn isTab
  · have encoded := utf8EncodeChar_ofNat byte isAscii
    have checked : ∀ byte : UInt8, 31 < byte ∧ byte ≠ quote ∧ byte ≠ backslash →
        byte < 0x80 → 0x20 ≤ (Char.ofNat byte.toNat).toNat ∧
          Char.ofNat byte.toNat ≠ '"' ∧ Char.ofNat byte.toNat ≠ '\\' :=
      forall_byte (by decide)
    obtain ⟨visible, notQuote, notBackslash⟩ := checked byte plain isAscii
    rw [← encoded]
    exact .plain visible notQuote notBackslash others
  iterate 7
    · subst byte
      exact .escape rfl others
  · have isNumber := hex4_lowerHex byte
    rw [← toNat_ofNat_byte byte isAscii] at isNumber
    exact .unicode isNumber others

theorem escape_of_le :
    ∀ byte : UInt8, 0x80 ≤ byte → escape byte = [byte] :=
  forall_byte (by decide)

theorem characters_stored
    {c : Char}
    (present : c ≠ Char.ofNat 0)
    {text : Bytes}
    {chars : List Char}
    (others : JsonText.Characters text chars) :
    JsonText.Characters ((stored c).flatMap escape ++ text) (c :: chars) := by
  have nonzero : c.toNat ≠ 0 := by
    intro zero
    rw [← zero, Char.ofNat_toNat] at present
    exact present rfl
  rw [stored, if_neg nonzero]
  rcases Nat.lt_or_ge c.toNat 0x80 with short | long
  · -- The only byte is the number of the character.
    have number : (UInt8.ofNat c.toNat).toNat = c.toNat := by
      rw [UInt8.toNat_ofNat']
      omega
    have isAscii : UInt8.ofNat c.toNat < 0x80 := by
      rw [UInt8.lt_iff_toNat_lt, number]
      exact short
    have present : UInt8.ofNat c.toNat ≠ 0 := by
      intro zero
      rw [zero] at number
      exact nonzero number.symm
    have encoded := utf8EncodeChar_ofNat _ isAscii
    have escaped := characters_escape present isAscii others
    rw [number, Char.ofNat_toNat] at encoded escaped
    rw [encoded, List.flatMap_singleton]
    exact escaped
  · have large : ∀ byte ∈ String.utf8EncodeChar c, 0x80 ≤ byte.toNat := by
      intro byte inside
      rcases mem_utf8EncodeChar inside with ⟨-, small⟩ | large
      · omega
      · exact large
    have same : (String.utf8EncodeChar c).flatMap escape = String.utf8EncodeChar c := by
      calc (String.utf8EncodeChar c).flatMap escape
          = (String.utf8EncodeChar c).flatMap fun byte => [byte] := by
            rw [List.flatMap_def, List.flatMap_def]
            exact congrArg List.flatten (List.map_congr_left fun byte inside =>
              escape_of_le byte (UInt8.le_iff_toNat_le.mpr (large byte inside)))
        _ = String.utf8EncodeChar c := List.flatMap_singleton' _
    rw [same]
    refine .plain (by omega) ?_ ?_ others
    · rintro rfl
      exact absurd long (by decide)
    · rintro rfl
      exact absurd long (by decide)

/-- What the printer writes between the quotes of a string. -/
theorem characters_flatMap_escape
    {chars : List Char}
    (present : Char.ofNat 0 ∉ chars) :
    JsonText.Characters ((chars.flatMap stored).flatMap escape) chars := by
  induction chars with
  | nil => exact .nil
  | cons c chars inductionHypothesis =>
      obtain ⟨first, others⟩ := List.ne_and_not_mem_of_not_mem_cons present
      rw [List.flatMap_cons, List.flatMap_append]
      exact characters_stored first.symm (inductionHypothesis others)

/-! ## Arrays and objects -/

theorem Elements.blank
    {allowed : Numerals}
    {gap text : Bytes}
    {elements : List Value}
    (blankGap : Blank gap)
    (areElements : Elements allowed text elements) :
    Elements allowed (gap ++ text) elements := by
  have joined {before : Bytes} (blankBefore : Blank before) : Blank (gap ++ before) :=
    fun byte inside => (List.mem_append.mp inside).elim (blankGap byte) (blankBefore byte)
  cases areElements with
  | last blankBefore means blankBehind =>
      rw [← List.append_assoc]
      exact .last (joined blankBefore) means blankBehind
  | more blankBefore means blankBehind areElements =>
      rw [← List.append_assoc]
      exact .more (joined blankBefore) means blankBehind areElements

theorem Members.blank
    {allowed : Numerals}
    {gap text : Bytes}
    {members : List (List Char × Value)}
    (blankGap : Blank gap)
    (areMembers : Members allowed text members) :
    Members allowed (gap ++ text) members := by
  have joined {before : Bytes} (blankBefore : Blank before) : Blank (gap ++ before) :=
    fun byte inside => (List.mem_append.mp inside).elim (blankGap byte) (blankBefore byte)
  cases areMembers with
  | last blankBefore isMember blankBehind =>
      rw [← List.append_assoc]
      exact .last (joined blankBefore) isMember blankBehind
  | more blankBefore isMember blankBehind areMembers =>
      rw [← List.append_assoc]
      exact .more (joined blankBefore) isMember blankBehind areMembers

/-- The texts of the entries of a container, as they are put together. -/
def ElementsPrinted (gap : Bytes) (entries : List Bytes) (elements : List Value) : Prop :=
  (entries = [] ∧ elements = []) ∨
    (entries ≠ [] ∧ Elements anyNumeral (compose (comma :: gap) entries) elements)

theorem elementsPrinted_cons
    {gap entry : Bytes}
    {entries : List Bytes}
    {element : Value}
    {elements : List Value}
    (blankGap : Blank gap)
    (means : Means anyNumeral entry element)
    (others : ElementsPrinted gap entries elements) :
    ElementsPrinted gap (entry :: entries) (element :: elements) := by
  refine .inr ⟨List.cons_ne_nil _ _, ?_⟩
  rcases others with ⟨rfl, rfl⟩ | ⟨some, areElements⟩
  · have last := Elements.last blank_nil means blank_nil
    rw [List.nil_append, List.append_nil] at last
    exact last
  · obtain ⟨next, entries, rfl⟩ := List.exists_cons_of_ne_nil some
    have more := Elements.more blank_nil means blank_nil (Elements.blank blankGap areElements)
    rw [compose, List.append_assoc]
    exact more

def MembersPrinted (gap tail : Bytes) (entries : List Bytes)
    (members : List (List Char × Value)) : Prop :=
  (entries = [] ∧ members = []) ∨
    (entries ≠ [] ∧ Members anyNumeral (compose (comma :: gap) entries ++ tail) members)

theorem membersPrinted_cons
    {gap tail indent entry : Bytes}
    {entries : List Bytes}
    {member : List Char × Value}
    {members : List (List Char × Value)}
    (blankGap : Blank gap)
    (blankTail : Blank tail)
    (blankIndent : Blank indent)
    (isMember : Member anyNumeral entry member)
    (others : MembersPrinted gap tail entries members) :
    MembersPrinted gap tail ((indent ++ entry) :: entries) (member :: members) := by
  refine .inr ⟨List.cons_ne_nil _ _, ?_⟩
  rcases others with ⟨rfl, rfl⟩ | ⟨some, areMembers⟩
  · have last := Members.last blankIndent isMember blankTail
    rw [← List.append_assoc] at last
    exact last
  · obtain ⟨next, entries, rfl⟩ := List.exists_cons_of_ne_nil some
    have more := Members.more blankIndent isMember blank_nil (Members.blank blankGap areMembers)
    simpa only [compose, List.append_assoc, List.cons_append, List.nil_append] using more

theorem blank_replicate_tab (count : Nat) : Blank (List.replicate count tab) := by
  intro byte inside
  exact .inr (.inl (List.eq_of_mem_replicate inside))

theorem blank_lineEnd (fmt : Bool) : Blank (if fmt then [newline] else []) := by
  intro byte inside
  cases fmt with
  | true => exact .inr (.inr (.inl (List.mem_singleton.mp inside)))
  | false => cases inside

theorem blank_space (fmt : Bool) : Blank (if fmt then [space] else []) := by
  intro byte inside
  cases fmt with
  | true => exact .inl (List.mem_singleton.mp inside)
  | false => cases inside

theorem blank_indent
    (fmt : Bool)
    (count : Nat) :
    Blank (if fmt then List.replicate count tab else []) := by
  cases fmt with
  | true => exact blank_replicate_tab count
  | false => exact blank_nil

theorem blank_append
    {left right : Bytes}
    (blankLeft : Blank left)
    (blankRight : Blank right) :
    Blank (left ++ right) :=
  fun byte inside => (List.mem_append.mp inside).elim (blankLeft byte) (blankRight byte)

/-- The text of an array. -/
theorem means_printArray
    {entries : List Bytes}
    {elements : List Value}
    (fmt : Bool)
    (printed : ElementsPrinted (if fmt then [space] else []) entries elements) :
    Means anyNumeral (printArray entries fmt) (.array elements) := by
  rcases printed with ⟨rfl, rfl⟩ | ⟨-, areElements⟩
  · exact .emptyArray blank_nil
  · exact .array areElements

/-- The text of an object. -/
theorem means_printObject
    {texts : List (Bytes × Bytes)}
    {members : List (List Char × Value)}
    (depth : Nat)
    (fmt : Bool)
    (printed : MembersPrinted (if fmt then [newline] else [])
      ((if fmt then [newline] else []) ++ (if fmt then List.replicate depth tab else []))
      (texts.map (printMember (depth + 1) fmt)) members) :
    Means anyNumeral (printObject texts depth fmt) (.object members) := by
  unfold printObject
  rcases printed with ⟨empty, rfl⟩ | ⟨some, areMembers⟩
  · rw [if_pos (List.map_eq_nil_iff.mp empty)]
    exact .emptyObject (blank_append (blank_lineEnd fmt) (blank_indent fmt (depth - 1)))
  · have nonempty : texts ≠ [] := fun empty => some (List.map_eq_nil_iff.mpr empty)
    have means := Means.object (Members.blank (blank_lineEnd fmt) areMembers)
    rw [if_neg nonempty]
    simpa only [List.append_assoc] using means

/-- The line of a member. -/
theorem member_printMember
    {name : List Char}
    {entry : Bytes}
    {value : Value}
    (present : Char.ofNat 0 ∉ name)
    (means : Means anyNumeral entry value)
    (depth : Nat)
    (fmt : Bool) :
    ∃ line, printMember depth fmt (printStringPtr (some (CString.ofChars name)), entry) =
        (if fmt then List.replicate depth tab else []) ++ line ∧
      Member anyNumeral line (name, value) := by
  have isMember := Member.named (characters_flatMap_escape present) blank_nil
    (blank_indent fmt 1) means
  refine ⟨_, ?_, isMember⟩
  simp [printMember, printStringPtr, CString.ofChars, quote, colon]

/-! ## Trees -/

/-- The text of a tree, its numbers as rationals, stands for what the tree says. -/
theorem means_printValue_of_says
    {item : CJSON}
    {value : Value}
    (isSaid : Says item value)
    (depth : Nat)
    (fmt : Bool) :
    Means anyNumeral (item.printValue depth fmt) value := by
  refine @Says.rec
    (fun item value _ => ∀ depth, Means anyNumeral (item.printValue depth fmt) value)
    (fun items elements _ => ∀ depth, ElementsPrinted (if fmt then [space] else [])
      (items.map fun item => item.printValue depth fmt) elements)
    (fun items members _ => ∀ depth tail, Blank tail →
      MembersPrinted (if fmt then [newline] else []) tail
        ((items.map fun item => (printStringPtr item.string, item.printValue depth fmt)).map
          (printMember depth fmt)) members)
    ?null ?isFalse ?isTrue ?number ?string ?array ?object ?noElements ?elements ?noMembers
    ?members item value isSaid depth
  case null =>
    intro item isNull depth
    rw [printValue_null depth fmt isNull]
    exact .null
  case isFalse =>
    intro item isFalse depth
    rw [printValue_false depth fmt isFalse]
    exact .isFalse
  case isTrue =>
    intro item isTrue depth
    rw [printValue_true depth fmt isTrue]
    exact .isTrue
  case number =>
    intro item isNumber depth
    rw [printValue_number depth fmt isNumber]
    exact .number (number_printNumber item)
  case string =>
    intro item chars isString valuestring present depth
    rw [printValue_string depth fmt isString, valuestring]
    exact .string (characters_flatMap_escape present)
  case array =>
    intro item elements isArray _ printed depth
    rw [printValue_array depth fmt isArray]
    exact means_printArray fmt (printed (depth + 1))
  case object =>
    intro item members isObject _ printed depth
    rw [printValue_object depth fmt isObject]
    exact means_printObject depth fmt (printed (depth + 1) _
      (blank_append (blank_lineEnd fmt) (blank_indent fmt depth)))
  case noElements => exact fun _ => .inl ⟨rfl, rfl⟩
  case elements =>
    intro item items element elements _ _ means printed depth
    rw [List.map_cons]
    exact elementsPrinted_cons (blank_space fmt) (means depth) (printed depth)
  case noMembers => exact fun _ _ _ => .inl ⟨rfl, rfl⟩
  case members =>
    intro item items name value members string present _ _ means printed depth tail blankTail
    obtain ⟨line, isLine, isMember⟩ :=
      member_printMember present (means depth) depth fmt
    rw [List.map_cons, List.map_cons, string, isLine]
    exact membersPrinted_cons (blank_lineEnd fmt) blankTail (blank_indent fmt depth)
      isMember (printed depth tail blankTail)

/-- The text of a tree stands for what the tree says. -/
theorem means_printValue
    {item : CJSON}
    {value : Value}
    (isSaid : Says item value)
    (finite : item.HoldsFinite)
    (depth : Nat)
    (fmt : Bool) :
    Means anyNumeral (item.printValueWith printDouble depth fmt) value := by
  rw [printValueWith_printDouble finite]
  exact means_printValue_of_says isSaid depth fmt

/-- An array of a number and a string in UTF-8. -/
theorem means_printValue_pair :
    Means anyNumeral (printValueWith printDouble { newItem with
        type := .array
        child := [{ newItem with type := .number, valueint := 7, valuedouble := 7 },
          { newItem with
            type := .string
            valuestring := some (CString.ofChars [Char.ofNat 0xE9]) }] } 0 true)
      (.array [.number 7, .string [Char.ofNat 0xE9]]) := by
  have seven : ({ newItem with type := .number, valueint := 7, valuedouble := 7 } :
      CJSON).printedValue = 7 := printedValue_of_integer rfl
  have isSaid := @Says.number
    { newItem with type := .number, valueint := 7, valuedouble := 7 } rfl
  rw [seven] at isSaid
  exact means_printValue (.array rfl (.cons isSaid (.cons (.string rfl rfl (by decide)) .nil)))
    (by decide +kernel) 0 true

/-! ## Texts, parsed and printed -/

/-- The number that the printer writes for a number that was parsed. -/
def printedNumber (n : Rat) : Rat :=
  printedValue { newItem with valuedouble := n, valueint := toInt n }

def printedChars (chars : List Char) : List Char :=
  chars.filter (·.toNat ≠ 0)

mutual

/-- A value as it is printed once it was parsed: its numbers are rounded, and the
character zero is left out of its strings. -/
def printedMeaning : Value → Value
  | .null => .null
  | .bool b => .bool b
  | .number n => .number (printedNumber n)
  | .string chars => .string (printedChars chars)
  | .array elements => .array (printedElements elements)
  | .object members => .object (printedMembers members)

def printedElements : List Value → List Value
  | [] => []
  | element :: elements => printedMeaning element :: printedElements elements

def printedMembers : List (List Char × Value) → List (List Char × Value)
  | [] => []
  | (name, value) :: members =>
      (printedChars name, printedMeaning value) :: printedMembers members

end

theorem not_mem_printedChars (chars : List Char) : Char.ofNat 0 ∉ printedChars chars := by
  intro present
  exact absurd rfl (of_decide_eq_true (List.mem_filter.mp present).2)

/-- The character zero is stored nowhere. -/
theorem ofChars_printedChars (chars : List Char) :
    CString.ofChars (printedChars chars) = CString.ofChars chars := by
  apply Subtype.ext
  change (printedChars chars).flatMap stored = chars.flatMap stored
  induction chars with
  | nil => rfl
  | cons c chars inductionHypothesis =>
      rw [printedChars] at inductionHypothesis ⊢
      by_cases zero : c.toNat = 0
      · have unstored : stored c = [] := if_pos zero
        rw [List.filter_cons, if_neg (by simp [zero]), inductionHypothesis, List.flatMap_cons,
          unstored, List.nil_append]
      · rw [List.filter_cons, if_pos (by simp [zero]), List.flatMap_cons, List.flatMap_cons,
          inductionHypothesis]

mutual

/-- The tree of a value says the value as it is printed. -/
theorem says_ofValue
    (new : CJSON)
    (value : Value) :
    Says (ofValue new value) (printedMeaning value) := by
  cases value with
  | null => exact .null rfl
  | bool b =>
      cases b with
      | false => exact .isFalse rfl
      | true => exact .isTrue rfl
  | number _ => exact .number rfl
  | string chars =>
      exact .string rfl (congrArg some (ofChars_printedChars chars).symm)
        (not_mem_printedChars chars)
  | array elements => exact .array rfl (says_ofElements elements)
  | object members => exact .object rfl (says_ofMembers members)
termination_by structural value

theorem says_ofElements (elements : List Value) :
    SaysElements (ofElements elements) (printedElements elements) := by
  cases elements with
  | nil => exact .nil
  | cons element elements =>
      exact .cons (says_ofValue newItem element) (says_ofElements elements)
termination_by structural elements

theorem says_ofMembers (members : List (List Char × Value)) :
    SaysMembers (ofMembers members) (printedMembers members) := by
  cases members with
  | nil => exact .nil
  | cons member members =>
      cases member with
      | mk name value =>
          have named := ofValue_string { newItem with string := some (CString.ofChars name) }
            value
          have stripped := congrArg some (ofChars_printedChars name).symm
          exact .cons (named.trans stripped) (not_mem_printedChars name)
            (says_ofValue { newItem with string := some (CString.ofChars name) } value)
            (says_ofMembers members)
termination_by structural members

end

mutual

/-- Values of one shape, with the same strings up to the character zero, and with numbers
that are off by half of a millionth at most, or of a millionth of a larger number. -/
inductive Near : Value → Value → Prop
  | null : Near .null .null
  | bool {b : Bool} : Near (.bool b) (.bool b)
  | number
      {n m : Rat}
      (close : |m - n| ≤ 5 / 10 ^ 7 * max 1 |n|) : Near (.number n) (.number m)
  | string {chars : List Char} : Near (.string chars) (.string (printedChars chars))
  | array
      {elements shown : List Value}
      (near : NearElements elements shown) : Near (.array elements) (.array shown)
  | object
      {members shown : List (List Char × Value)}
      (near : NearMembers members shown) : Near (.object members) (.object shown)

inductive NearElements : List Value → List Value → Prop
  | nil : NearElements [] []
  | cons
      {element shown : Value}
      {elements others : List Value}
      (near : Near element shown)
      (nearOthers : NearElements elements others) :
      NearElements (element :: elements) (shown :: others)

inductive NearMembers : List (List Char × Value) → List (List Char × Value) → Prop
  | nil : NearMembers [] []
  | cons
      {name : List Char}
      {value shown : Value}
      {members others : List (List Char × Value)}
      (near : Near value shown)
      (nearOthers : NearMembers members others) :
      NearMembers ((name, value) :: members) ((printedChars name, shown) :: others)

end

mutual

theorem near_printedMeaning (value : Value) : Near value (printedMeaning value) := by
  cases value with
  | null => exact .null
  | bool b => exact .bool
  | number n =>
      exact .number (abs_printedValue_sub_le
        { newItem with valuedouble := n, valueint := toInt n })
  | string chars => exact .string
  | array elements => exact .array (near_printedElements elements)
  | object members => exact .object (near_printedMembers members)
termination_by structural value

theorem near_printedElements (elements : List Value) :
    NearElements elements (printedElements elements) := by
  cases elements with
  | nil => exact .nil
  | cons element elements =>
      exact .cons (near_printedMeaning element) (near_printedElements elements)
termination_by structural elements

theorem near_printedMembers (members : List (List Char × Value)) :
    NearMembers members (printedMembers members) := by
  cases members with
  | nil => exact .nil
  | cons member members =>
      cases member with
      | mk name value => exact .cons (near_printedMeaning value) (near_printedMembers members)
termination_by structural members

end

/-- A text that is parsed and printed again keeps its meaning, but for the rounding of
numbers and the character zero. -/
theorem print_parse_means
    {before text behind : Bytes}
    {value : Value}
    (blankBefore : Blank before)
    (means : Means doubleNumeral text value)
    (blankBehind : Blank behind)
    (rest : Bytes) :
    ∃ item shown, parseWithOpts (before ++ (text ++ (behind ++ 0 :: rest))) true =
        .ok (item, 0 :: rest) ∧
      Near value shown ∧
      ∀ fmt, Means anyNumeral (item.printValueWith printDouble 0 fmt) shown := by
  refine ⟨ofValue newItem value, printedMeaning value,
    parseWithOpts_ofValue blankBefore means blankBehind rest, near_printedMeaning value,
    fun fmt => ?_⟩
  rw [printValueWith_printDouble (holdsFinite_means means newItem)]
  exact means_printValue_of_says (says_ofValue newItem value) 0 fmt

/-- `[-15e1,"\u00e9"]` is printed as a text that stands for nearly the same. -/
theorem print_parse_means_pair :
    ∃ item shown, parseWithOpts (ascii [' ', '[', '-', '1', '5', 'e', '1', ',', '"', '\\', 'u',
        '0', '0', 'e', '9', '"', ']'] ++ [0]) true = .ok (item, [0]) ∧
      Near (.array [.number (-150), .string [Char.ofNat 0xE9]]) shown ∧
      ∀ fmt, Means anyNumeral (item.printValueWith printDouble 0 fmt) shown :=
  @print_parse_means [0x20] _ [] _
    (fun _ inside => .inl (List.mem_singleton.mp inside)) means_pair blank_nil []

end ProtobufSandbox
