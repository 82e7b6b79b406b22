import ProtobufSandbox.Json.Numbers

/-!
# Trees, printed and parsed

What the printer writes for a tree, formatted or not, is parsed as a tree that
says the same up to the digits of its numbers, and the same if it is well formed.
The parser may start from any item, and it stops where the printed text ends.
-/

namespace ProtobufSandbox
namespace CJSON

/-! ## The tree that is read back -/

mutual

/-- A tree as it is read back: its numbers are those that their texts stand for,
and its elements have no names. -/
def reread : CJSON → CJSON
  | ⟨child, type, valuestring, valueint, valuedouble, string⟩ =>
      match type with
      | .number =>
          let value := printedValue
            ⟨child, .number, valuestring, valueint, valuedouble, string⟩
          ⟨child, .number, valuestring, toInt value, value, string⟩
      | .array =>
          ⟨rereadElements child, .array, valuestring, valueint, valuedouble,
            string⟩
      | .object =>
          ⟨rereadMembers child, .object, valuestring, valueint, valuedouble,
            string⟩
      | .null | .false | .true | .string =>
          ⟨child, type, valuestring, valueint, valuedouble, string⟩

/-- The elements of an array. -/
def rereadElements : List CJSON → List CJSON
  | [] => []
  | item :: items => { item.reread with string := none } :: rereadElements items

/-- The members of an object. -/
def rereadMembers : List CJSON → List CJSON
  | [] => []
  | item :: items => item.reread :: rereadMembers items

end

theorem rereadElements_eq_map (items : List CJSON) :
    rereadElements items =
      items.map fun item => { item.reread with string := none } := by
  induction items with
  | nil => rfl
  | cons item items inductionHypothesis =>
      rw [rereadElements, inductionHypothesis, List.map_cons]

theorem rereadMembers_eq_map (items : List CJSON) :
    rereadMembers items = items.map reread := by
  induction items with
  | nil => rfl
  | cons item items inductionHypothesis =>
      rw [rereadMembers, inductionHypothesis, List.map_cons]

/-- An item keeps its name. -/
theorem reread_string (item : CJSON) : item.reread.string = item.string := by
  obtain ⟨child, type, valuestring, valueint, valuedouble, string⟩ := item
  cases type <;> rfl

/-- What an item says does not depend on its name. -/
theorem content_with_string (item : CJSON) (string : Option CString) :
    ({ item with string := string } : CJSON).content = item.content := by
  obtain ⟨child, type, valuestring, valueint, valuedouble, name⟩ := item
  cases type <;> rfl

theorem reread_number
    {item : CJSON}
    (number : item.type = .number) :
    item.reread.content =
      .number (toInt item.printedValue) item.printedValue := by
  cases item
  subst number
  rfl

theorem reread_array
    {item : CJSON}
    (array : item.type = .array) :
    item.reread.content =
      .array (contents
        (item.child.map fun element => { element.reread with string := none })) := by
  cases item
  subst array
  rw [reread, content, rereadElements_eq_map]

theorem reread_object
    {item : CJSON}
    (object : item.type = .object) :
    item.reread.content = .object (contents (item.child.map reread)) := by
  cases item
  subst object
  rw [reread, content, rereadMembers_eq_map]

/-- An item that the printer writes in full: a string item has a string, and the
members of an object have names. -/
structure PrintableNode (item : CJSON) : Prop where
  string : item.type = .string → item.valuestring.isSome
  members : item.type = .object → ∀ member ∈ item.child, member.string.isSome

/-- Every item of the tree is written in full. -/
def Printable (item : CJSON) : Prop :=
  ∀ node ∈ item.nodes, node.PrintableNode

theorem Printable.node
    {item : CJSON}
    (printable : item.Printable) :
    item.PrintableNode :=
  printable item item.mem_nodes_self

theorem Printable.of_mem_child
    {item child : CJSON}
    (printable : item.Printable)
    (container : item.IsContainer)
    (present : child ∈ item.child) :
    child.Printable :=
  fun node below => printable node (mem_nodes_of_mem_child container present below)

theorem WellFormed.printable
    {item : CJSON}
    (wellFormed : item.WellFormed) :
    item.Printable :=
  fun node below =>
    { string := (wellFormed node below).string
      members := (wellFormed node below).members }

/-- A well-formed tree is read back as it is. -/
theorem WellFormed.reread_content
    {item : CJSON}
    (wellFormed : item.WellFormed) :
    item.reread.content = item.content := by
  induction item using CJSON.induction with
  | node item inductionHypothesis =>
      cases type : item.type with
      | false | true | null | string =>
          cases item
          subst type
          rfl
      | number =>
          have integer := wellFormed.node.number type
          rw [reread_number type, content_number type,
            printedValue_of_integer integer, toInt_intCast, integer]
      | array =>
          rw [reread_array type, content_array type, contents_eq_map,
            contents_eq_map, List.map_map]
          congr 1
          apply List.map_congr_left
          intro element present
          have unnamed := wellFormed.node.elements type element present
          have same := inductionHypothesis element present
            (wellFormed.of_mem_child (Or.inl type) present)
          rw [Function.comp_apply, content_with_string, same, unnamed]
      | object =>
          rw [reread_object type, content_object type, contents_eq_map,
            contents_eq_map, List.map_map]
          congr 1
          apply List.map_congr_left
          intro member present
          have same := inductionHypothesis member present
            (wellFormed.of_mem_child (Or.inr type) present)
          rw [Function.comp_apply, reread_string, same]

/-! ## Blanks -/

theorem isBlank_nil : IsBlank [] :=
  fun _ present => absurd present List.not_mem_nil

theorem IsBlank.append
    {left right : Bytes}
    (leftBlank : IsBlank left)
    (rightBlank : IsBlank right) :
    IsBlank (left ++ right) := by
  intro byte present
  rcases List.mem_append.mp present with inLeft | inRight
  · exact leftBlank byte inLeft
  · exact rightBlank byte inRight

theorem isBlank_replicate
    (count : Nat)
    {byte : UInt8}
    (blank : Skipped byte) :
    IsBlank (List.replicate count byte) := by
  intro other present
  rw [List.eq_of_mem_replicate present]
  exact blank

theorem skip_of_lt
    {byte : UInt8}
    (visible : 32 < byte)
    (value : Bytes) :
    skip (byte :: value) = .ok (byte :: value) :=
  skip_cons (fun blank => UInt8.not_lt.mpr blank.2 visible) value

theorem delimited_of_blank
    {byte : UInt8}
    (blank : byte ≠ 0 ∧ byte ≤ 32)
    (rest : Bytes) :
    Delimited (byte :: rest) := by
  have checked : ∀ byte : UInt8, byte ≤ 32 →
      Decimal.isDigit byte = false ∧ byte ≠ point ∧
        byte ≠ UInt8.ofNat 'e'.toNat ∧ byte ≠ UInt8.ofNat 'E'.toNat :=
    forall_byte (by decide)
  exact checked byte blank.2

/-! ## The entries of a container -/

/-- A reader of entries that finds an item in its text, whatever blanks stand in
front of the text, and that passes over the blanks behind it. -/
def ReadsEntry
    (entry : Bytes → Except ParseError (CJSON × Bytes))
    (text : Bytes)
    (item : CJSON) :
    Prop :=
  ∀ {blanks after following : Bytes}, IsBlank blanks → Delimited after →
    skip after = .ok following →
      ∃ child, entry (blanks ++ (text ++ after)) = .ok (child, following) ∧
        child.Same item

/-- What stands behind an entry: the entries that are left, the blanks in front
of the closing bracket, and the text from there. -/
def remainder
    (blanks ending : Bytes)
    (text : CJSON → Bytes)
    (items : List CJSON)
    (rest : Bytes) :
    Bytes :=
  items.flatMap (fun item => comma :: (blanks ++ text item)) ++ (ending ++ rest)

theorem remainder_cons
    (blanks ending : Bytes)
    (text : CJSON → Bytes)
    (item : CJSON)
    (items : List CJSON)
    (rest : Bytes) :
    remainder blanks ending text (item :: items) rest =
      comma :: (blanks ++
        (text item ++ remainder blanks ending text items rest)) := by
  simp [remainder]

theorem length_le_remainder
    (blanks ending : Bytes)
    (text : CJSON → Bytes)
    (items : List CJSON)
    (rest : Bytes) :
    items.length + rest.length ≤
      (remainder blanks ending text items rest).length := by
  induction items with
  | nil =>
      simp only [remainder, List.flatMap_nil, List.nil_append,
        List.length_append, List.length_nil]
      omega
  | cons item items inductionHypothesis =>
      rw [remainder_cons]
      simp only [List.length_cons, List.length_append]
      omega

section Entries

variable {entry : Bytes → Except ParseError (CJSON × Bytes)}
variable {blanks ending : Bytes}
variable {text : CJSON → Bytes}
variable {copy : CJSON → CJSON}
variable {closing : UInt8}

/-- A closing bracket is visible, ends numbers and is no comma. -/
def IsClosing (closing : UInt8) : Prop :=
  closing = closeBracket ∨ closing = closeBrace

theorem IsClosing.visible (isClosing : IsClosing closing) : 32 < closing := by
  rcases isClosing with rfl | rfl <;> decide

theorem IsClosing.ne_comma (isClosing : IsClosing closing) :
    closing ≠ comma := by
  rcases isClosing with rfl | rfl <;> decide

theorem delimited_remainder
    (endingBlank : IsBlank ending)
    (isClosing : IsClosing closing)
    (items : List CJSON)
    (rest : Bytes) :
    Delimited (remainder blanks ending text items (closing :: rest)) := by
  cases items with
  | cons item items =>
      rw [remainder_cons]
      exact ⟨by decide, by decide, by decide, by decide⟩
  | nil =>
      cases ending with
      | nil =>
          change Delimited (closing :: rest)
          rcases isClosing with rfl | rfl
          · exact ⟨by decide, by decide, by decide, by decide⟩
          · exact ⟨by decide, by decide, by decide, by decide⟩
      | cons byte ending =>
          exact delimited_of_blank (endingBlank byte List.mem_cons_self) _

/-- After an entry the loop finds a comma or the closing bracket. -/
theorem exists_skip_remainder
    (endingBlank : IsBlank ending)
    (isClosing : IsClosing closing)
    (items : List CJSON)
    (rest : Bytes) :
    ∃ following,
      skip (remainder blanks ending text items (closing :: rest)) =
        .ok following ∧
      items.length < following.length := by
  have long := length_le_remainder blanks ending text items (closing :: rest)
  cases items with
  | cons item items =>
      refine ⟨_, ?_, Nat.lt_of_lt_of_le (Nat.lt_add_of_pos_right ?_) long⟩
      · rw [remainder_cons]
        exact skip_of_lt (by decide) _
      · exact Nat.succ_pos _
  | nil =>
      refine ⟨closing :: rest, ?_, Nat.succ_pos _⟩
      change skip (ending ++ closing :: rest) = _
      rw [skip_append endingBlank, skip_of_lt isClosing.visible]

/-- At a comma the loop takes one more turn. -/
theorem parseEntries_comma
    (turns : Nat)
    (value : Bytes) :
    parseEntries entry (turns + 1) (comma :: value) =
      entry value >>= fun result => parseEntries entry turns result.2 >>= fun later =>
        .ok (result.1 :: later.1, later.2) := by
  simp only [parseEntries, peek_cons, Outcome.ok_bind, ne_eq, not_true_eq_false,
    if_false, List.drop_succ_cons, List.drop_zero]
  rfl

/-- Anywhere else it ends. -/
theorem parseEntries_of_ne_comma
    {byte : UInt8}
    (notComma : byte ≠ comma)
    (turns : Nat)
    (value : Bytes) :
    parseEntries entry (turns + 1) (byte :: value) = .ok ([], byte :: value) := by
  rw [parseEntries, peek_cons, Outcome.ok_bind, if_pos notComma]
  rfl

/-- The loop reads the entries that are left, up to the closing bracket. -/
theorem parseEntries_remainder
    (blanksBlank : IsBlank blanks)
    (endingBlank : IsBlank ending)
    (isClosing : IsClosing closing)
    {items : List CJSON}
    (reads : ∀ item ∈ items, ReadsEntry entry (text item) (copy item))
    {turns : Nat}
    (enough : items.length < turns)
    {rest value : Bytes}
    (skipped : skip (remainder blanks ending text items (closing :: rest)) =
      .ok value) :
    ∃ children,
      parseEntries entry turns value = .ok (children, closing :: rest) ∧
      contents children = contents (items.map copy) := by
  induction items generalizing turns value with
  | nil =>
      cases turns with
      | zero => cases enough
      | succ turns =>
          change skip (ending ++ closing :: rest) = _ at skipped
          rw [skip_append endingBlank, skip_of_lt isClosing.visible] at skipped
          cases skipped
          exact ⟨[], parseEntries_of_ne_comma isClosing.ne_comma turns rest, rfl⟩
  | cons item items inductionHypothesis =>
      cases turns with
      | zero => cases enough
      | succ turns =>
          obtain ⟨readsItem, reads⟩ := List.forall_mem_cons.mp reads
          rw [remainder_cons, skip_of_lt (by decide)] at skipped
          cases skipped
          obtain ⟨following, skipped, _⟩ :=
            exists_skip_remainder endingBlank isClosing items rest
          obtain ⟨child, readChild, sameString, sameContent⟩ :=
            readsItem blanksBlank
              (delimited_remainder endingBlank isClosing items rest) skipped
          obtain ⟨children, readChildren, sameContents⟩ :=
            inductionHypothesis reads (Nat.lt_of_succ_lt_succ enough) skipped
          refine ⟨child :: children, ?_, ?_⟩
          · rw [parseEntries_comma, readChild, Outcome.ok_bind, readChildren]
            rfl
          · rw [contents, List.map_cons, contents, sameString, sameContent,
              sameContents]

/-- In the text that is composed of its entries a container reads the first one, and
leaves what stands behind it to the loop. -/
theorem parseContainer_compose_cons
    (opening : UInt8)
    {before indent : Bytes}
    (beforeBlank : IsBlank before)
    (indentBlank : IsBlank indent)
    {item : CJSON}
    (visible : ∃ first tail, text item = first :: tail ∧ 32 < first ∧ first ≠ closing)
    (items : List CJSON)
    (rest : Bytes) :
    parseContainer opening closing entry
        (opening :: (before ++
          (compose (comma :: blanks)
            ((item :: items).map fun item => indent ++ text item) ++
            (ending ++ closing :: rest)))) =
      entry (text item ++
          remainder (blanks ++ indent) ending text items (closing :: rest)) >>=
        fun result => parseEntries entry result.2.length result.2 >>= fun later =>
          peek later.2 >>= fun byte =>
            if byte = closing then .ok (result.1 :: later.1, later.2.drop 1)
            else .error (.malformed later.2) := by
  obtain ⟨first, tail, starts, firstVisible, notClosing⟩ := visible
  have composed :
      compose (comma :: blanks)
          ((item :: items).map fun item => indent ++ text item) ++
          (ending ++ closing :: rest) =
        indent ++ (text item ++
          remainder (blanks ++ indent) ending text items (closing :: rest)) := by
    rw [List.map_cons, compose_cons, remainder, List.flatMap_map]
    simp only [List.append_assoc, List.cons_append]
  have found : skip (before ++ (indent ++ (text item ++
      remainder (blanks ++ indent) ending text items (closing :: rest)))) =
      .ok (text item ++
        remainder (blanks ++ indent) ending text items (closing :: rest)) := by
    rw [skip_append beforeBlank, skip_append indentBlank, starts,
      List.cons_append, skip_of_lt firstVisible]
  rw [composed]
  simp only [parseContainer, peek_cons, Outcome.ok_bind, ne_eq, not_true_eq_false,
    if_false, List.drop_succ_cons, List.drop_zero, found]
  rw [starts, List.cons_append, peek_cons, Outcome.ok_bind, if_neg notClosing]
  rfl

/-- A container is read from the text that is composed of its entries. -/
theorem parseContainer_compose
    (opening : UInt8)
    {before indent : Bytes}
    (beforeBlank : IsBlank before)
    (blanksBlank : IsBlank blanks)
    (indentBlank : IsBlank indent)
    (endingBlank : IsBlank ending)
    (isClosing : IsClosing closing)
    {items : List CJSON}
    (visible : ∀ item ∈ items, ∃ first tail,
      text item = first :: tail ∧ 32 < first ∧ first ≠ closing)
    (reads : ∀ item ∈ items, ReadsEntry entry (text item) (copy item))
    (rest : Bytes) :
    ∃ children,
      parseContainer opening closing entry
          (opening :: (before ++
            (compose (comma :: blanks)
              (items.map fun item => indent ++ text item) ++
              (ending ++ closing :: rest)))) =
        .ok (children, rest) ∧
      contents children = contents (items.map copy) := by
  cases items with
  | nil =>
      refine ⟨[], ?_, rfl⟩
      have skipped : skip (before ++ (ending ++ closing :: rest)) =
          .ok (closing :: rest) := by
        rw [skip_append beforeBlank, skip_append endingBlank,
          skip_of_lt isClosing.visible]
      simp only [List.map_nil, compose, List.nil_append, parseContainer,
        peek_cons, Outcome.ok_bind, ne_eq, not_true_eq_false, if_false, if_true,
        List.drop_succ_cons, List.drop_zero, skipped]
      rfl
  | cons item items =>
      obtain ⟨visibleItem, -⟩ := List.forall_mem_cons.mp visible
      obtain ⟨readsItem, reads⟩ := List.forall_mem_cons.mp reads
      obtain ⟨following, skipped, long⟩ :=
        exists_skip_remainder endingBlank isClosing items rest
      obtain ⟨child, readChild, sameString, sameContent⟩ :=
        readsItem isBlank_nil
          (delimited_remainder endingBlank isClosing items rest) skipped
      obtain ⟨children, readChildren, sameContents⟩ :=
        parseEntries_remainder (blanksBlank.append indentBlank) endingBlank
          isClosing reads long skipped
      rw [List.nil_append] at readChild
      refine ⟨child :: children, ?_, ?_⟩
      · rw [parseContainer_compose_cons opening beforeBlank indentBlank visibleItem,
          readChild, Outcome.ok_bind, readChildren, Outcome.ok_bind, peek_cons,
          Outcome.ok_bind, if_pos rfl]
        rfl
      · rw [contents, List.map_cons, contents, sameString, sameContent,
          sameContents]

end Entries

/-! ## Elements and members -/

/-- A reader of values that finds an item in its text. -/
def ReadsValue
    (parse : CJSON → Bytes → Except ParseError (CJSON × Bytes))
    (text : Bytes)
    (item : CJSON) :
    Prop :=
  ∀ {after : Bytes}, Delimited after → ∀ new : CJSON,
    ∃ child, parse new (text ++ after) = .ok (child, after) ∧
      child.string = new.string ∧ child.content = item.content

/-- A text with a first byte that is no blank and no bracket that closes an
array. -/
def Visible (text : Bytes) : Prop :=
  ∃ first tail, text = first :: tail ∧ 32 < first ∧ first ≠ closeBracket

theorem Visible.skip
    {text : Bytes}
    (visible : Visible text)
    {blanks : Bytes}
    (blank : IsBlank blanks)
    (after : Bytes) :
    skip (blanks ++ (text ++ after)) = .ok (text ++ after) := by
  obtain ⟨first, tail, rfl, firstVisible, _⟩ := visible
  rw [skip_append blank, List.cons_append, skip_of_lt firstVisible]

section Values

variable {parse : CJSON → Bytes → Except ParseError (CJSON × Bytes)}
variable {text : Bytes}
variable {item : CJSON}

theorem readsEntry_element
    (visible : Visible text)
    (reads : ReadsValue parse text item)
    (unnamed : item.string = none) :
    ReadsEntry (parseElement parse) text item := by
  intro blanks after following blank delimited skipped
  obtain ⟨child, read, sameString, sameContent⟩ := reads delimited newItem
  refine ⟨child, ?_, ?_, sameContent⟩
  · simp only [parseElement, visible.skip blank, Outcome.ok_bind, read, skipped]
    rfl
  · rw [sameString, unnamed]
    rfl

theorem readsEntry_member
    {gap : Bytes}
    (gapBlank : IsBlank gap)
    (visible : Visible text)
    (reads : ReadsValue parse text item)
    {name : CString}
    (named : item.string = some name) :
    ReadsEntry (parseMember parse)
      (printStringPtr (some name) ++ colon :: (gap ++ text)) item := by
  intro blanks after following blank delimited skipped
  obtain ⟨child, read, sameString, sameContent⟩ :=
    reads delimited { newItem with type := .string, string := some name }
  have nameVisible : Visible (printStringPtr (some name)) :=
    ⟨quote, _, rfl, by decide, by decide⟩
  have colonVisible : skip (colon :: (gap ++ (text ++ after))) =
      .ok (colon :: (gap ++ (text ++ after))) :=
    skip_of_lt (by decide) _
  refine ⟨child, ?_, ?_, sameContent⟩
  · rw [List.append_assoc, List.cons_append, List.append_assoc]
    simp only [parseMember, nameVisible.skip blank, Outcome.ok_bind,
      parseString_printStringPtr, colonVisible, peek_cons, ne_eq,
      not_true_eq_false, if_false, List.drop_succ_cons, List.drop_zero,
      visible.skip gapBlank]
    change (parse { newItem with type := .string, string := some name }
      (text ++ after) >>= _) = _
    simp only [read, Outcome.ok_bind, skipped]
    rfl
  · rw [sameString, named]

end Values

/-! ## Values -/

/-- The text of an item that is written in full is visible. -/
theorem visible_printValue
    {item : CJSON}
    (printable : item.PrintableNode)
    (depth : Nat)
    (fmt : Bool) :
    Visible (item.printValue depth fmt) := by
  cases type : item.type with
  | false =>
      rw [printValue_false depth fmt type]
      exact ⟨_, _, rfl, by decide, by decide⟩
  | true =>
      rw [printValue_true depth fmt type]
      exact ⟨_, _, rfl, by decide, by decide⟩
  | null =>
      rw [printValue_null depth fmt type]
      exact ⟨_, _, rfl, by decide, by decide⟩
  | number =>
      obtain ⟨first, tail, starts, numeric⟩ := exists_printNumber_eq_cons item
      have checked : ∀ byte : UInt8,
          byte = minus ∨ Decimal.isDigit byte = true →
            32 < byte ∧ byte ≠ closeBracket :=
        forall_byte (by decide)
      rw [printValue_number depth fmt type]
      exact ⟨first, tail, starts, checked first numeric⟩
  | string =>
      obtain ⟨text, present⟩ := Option.isSome_iff_exists.mp (printable.string type)
      rw [printValue_string depth fmt type, present]
      exact ⟨_, _, rfl, by decide, by decide⟩
  | array =>
      rw [printValue_array depth fmt type]
      exact ⟨_, _, rfl, by decide, by decide⟩
  | object =>
      rw [printValue_object depth fmt type, printObject]
      cases fmt <;> split <;> exact ⟨_, _, rfl, by decide, by decide⟩

section Containers

variable {items : List CJSON}
variable {text : CJSON → Bytes}
variable {copy : CJSON → CJSON}
variable {fuel : Nat}

/-- A printed array is parsed when its elements are. -/
theorem parseValue_printArray
    (visible : ∀ item ∈ items, Visible (text item))
    (reads : ∀ item ∈ items,
      ReadsValue (parseValue fuel) (text item) (copy item))
    (unnamed : ∀ item ∈ items, (copy item).string = none)
    (fmt : Bool)
    (new : CJSON)
    (rest : Bytes) :
    ∃ children,
      parseValue (fuel + 1) new (printArray (items.map text) fmt ++ rest) =
        .ok ({ new with type := .array, child := children }, rest) ∧
      contents children = contents (items.map copy) := by
  have gapBlank : IsBlank (if fmt then [space] else []) := by
    cases fmt with
    | false => exact isBlank_nil
    | true => exact isBlank_replicate 1 (by decide)
  have readsEntry : ∀ item ∈ items,
      ReadsEntry (parseElement (parseValue fuel)) (text item) (copy item) :=
    fun item present =>
      readsEntry_element (visible item present) (reads item present)
        (unnamed item present)
  obtain ⟨children, read, sameContents⟩ :=
    parseContainer_compose openBracket isBlank_nil gapBlank isBlank_nil
      isBlank_nil (Or.inl rfl) visible readsEntry rest
  have spelled : printArray (items.map text) fmt ++ rest =
      openBracket :: ([] ++
        (compose (comma :: if fmt then [space] else [])
          (items.map fun item => [] ++ text item) ++
          ([] ++ closeBracket :: rest))) := by
    simp [printArray]
  refine ⟨children, ?_, sameContents⟩
  rw [spelled]
  change parseArray (parseValue fuel) new _ = _
  rw [parseArray, read]
  rfl

end Containers

/-- The blanks that the printer puts into an object. -/
theorem exists_printObject_eq
    (members : List (Bytes × Bytes))
    (depth : Nat)
    (fmt : Bool) :
    ∃ before indent gap ending,
      IsBlank before ∧ IsBlank indent ∧ IsBlank gap ∧ IsBlank ending ∧
      printObject members depth fmt =
        openBrace :: (before ++
          (compose (comma :: before)
            (members.map fun member =>
              indent ++ (member.1 ++ colon :: (gap ++ member.2))) ++
            (ending ++ [closeBrace]))) := by
  have tabs (count : Nat) : IsBlank (List.replicate count tab) :=
    isBlank_replicate count (by decide)
  have singleton {byte : UInt8} (blank : byte ≠ 0 ∧ byte ≤ 32) :
      IsBlank [byte] :=
    isBlank_replicate 1 blank
  have line : printMember (depth + 1) fmt = fun member =>
      (if fmt then List.replicate (depth + 1) tab else []) ++
        (member.1 ++ colon :: ((if fmt then [tab] else []) ++ member.2)) := by
    funext member
    rfl
  cases fmt with
  | false =>
      refine ⟨[], [], [], [], isBlank_nil, isBlank_nil, isBlank_nil,
        isBlank_nil, ?_⟩
      cases members with
      | nil => rfl
      | cons member members => simp [printObject, line]
  | true =>
      cases members with
      | nil =>
          refine ⟨[newline], [], [], List.replicate (depth - 1) tab,
            singleton (by decide), isBlank_nil, isBlank_nil, tabs _, ?_⟩
          simp [printObject, compose]
      | cons member members =>
          refine ⟨[newline], List.replicate (depth + 1) tab, [tab],
            newline :: List.replicate depth tab, singleton (by decide),
            tabs _, singleton (by decide),
            (singleton (by decide)).append (tabs depth), ?_⟩
          simp [printObject, line]

/-- A printed object is parsed when the values of its members are. -/
theorem parseValue_printObject
    {items : List CJSON}
    {text : CJSON → Bytes}
    {copy : CJSON → CJSON}
    {fuel : Nat}
    (visible : ∀ item ∈ items, Visible (text item))
    (reads : ∀ item ∈ items,
      ReadsValue (parseValue fuel) (text item) (copy item))
    (named : ∀ item ∈ items, item.string.isSome)
    (sameName : ∀ item, (copy item).string = item.string)
    (depth : Nat)
    (fmt : Bool)
    (new : CJSON)
    (rest : Bytes) :
    ∃ children,
      parseValue (fuel + 1) new
          (printObject
            (items.map fun item => (printStringPtr item.string, text item))
            depth fmt ++ rest) =
        .ok ({ new with type := .object, child := children }, rest) ∧
      contents children = contents (items.map copy) := by
  obtain ⟨before, indent, gap, ending, beforeBlank, indentBlank, gapBlank,
    endingBlank, spelled⟩ :=
    exists_printObject_eq
      (items.map fun item => (printStringPtr item.string, text item)) depth fmt
  have readsEntry : ∀ item ∈ items,
      ReadsEntry (parseMember (parseValue fuel))
        (printStringPtr item.string ++ colon :: (gap ++ text item))
        (copy item) := by
    intro item present
    obtain ⟨name, isNamed⟩ := Option.isSome_iff_exists.mp (named item present)
    rw [isNamed]
    exact readsEntry_member gapBlank (visible item present)
      (reads item present) ((sameName item).trans isNamed)
  have startsWithQuote : ∀ item ∈ items, ∃ first tail,
      printStringPtr item.string ++ colon :: (gap ++ text item) =
        first :: tail ∧ 32 < first ∧ first ≠ closeBrace := by
    intro item present
    obtain ⟨name, isNamed⟩ := Option.isSome_iff_exists.mp (named item present)
    rw [isNamed]
    exact ⟨quote, _, rfl, by decide, by decide⟩
  obtain ⟨children, read, sameContents⟩ :=
    parseContainer_compose openBrace beforeBlank beforeBlank indentBlank
      endingBlank (Or.inr rfl) startsWithQuote readsEntry rest
  refine ⟨children, ?_, sameContents⟩
  rw [spelled, List.map_map]
  simp only [List.cons_append, List.append_assoc, List.nil_append,
    Function.comp_def]
  change parseObject (parseValue fuel) new _ = _
  simp only [parseObject, read]
  rfl

/-- A printed item without entries is parsed as an item that says the same, up
to the digits of a number. -/
theorem parseValue_printValue_of_not_isContainer
    {item : CJSON}
    (printable : item.PrintableNode)
    (noContainer : ¬ item.IsContainer)
    (depth : Nat)
    (fmt : Bool)
    (fuel : Nat)
    (new : CJSON)
    {rest : Bytes}
    (delimited : item.type = .number → Delimited rest) :
    ∃ child, parseValue (fuel + 1) new (item.printValue depth fmt ++ rest) =
        .ok (child, rest) ∧
      child.string = new.string ∧ child.content = item.reread.content := by
  cases type : item.type with
  | array => exact absurd (Or.inl type) noContainer
  | object => exact absurd (Or.inr type) noContainer
  | false =>
      refine ⟨{ new with type := .false }, ?_, rfl, ?_⟩
      · rw [printValue_false depth fmt type]
        rfl
      · cases item
        subst type
        rfl
  | true =>
      refine ⟨{ new with type := .true, valueint := 1 }, ?_, rfl, ?_⟩
      · rw [printValue_true depth fmt type]
        rfl
      · cases item
        subst type
        rfl
  | null =>
      refine ⟨{ new with type := .null }, ?_, rfl, ?_⟩
      · rw [printValue_null depth fmt type]
        rfl
      · cases item
        subst type
        rfl
  | number =>
      obtain ⟨first, tail, starts, numeric⟩ := exists_printNumber_eq_cons item
      have read := parseNumber_printNumber new item (delimited type)
      rw [printValue_number depth fmt type]
      rw [starts, List.cons_append] at read ⊢
      refine ⟨_, (parseValue_number numeric fuel new _).trans read, rfl, ?_⟩
      rw [content_number rfl, reread_number type]
  | string =>
      obtain ⟨str, present⟩ :=
        Option.isSome_iff_exists.mp (printable.string type)
      rw [printValue_string depth fmt type, present]
      refine ⟨_, parseString_printStringPtr new str rest, rfl, ?_⟩
      cases item
      subst type present
      rfl

/-- A printed tree is parsed as a tree that says the same, up to the digits of
its numbers, and what follows it is left. -/
theorem parseValue_printValue
    {item : CJSON}
    (printable : item.Printable)
    (depth : Nat)
    (fmt : Bool)
    {fuel : Nat}
    (enough : (item.printValue depth fmt).length < fuel)
    (new : CJSON)
    {rest : Bytes}
    (delimited : item.type = .number → Delimited rest) :
    ∃ child, parseValue fuel new (item.printValue depth fmt ++ rest) =
        .ok (child, rest) ∧
      child.string = new.string ∧ child.content = item.reread.content := by
  induction item using CJSON.induction generalizing depth fuel new rest with
  | node item inductionHypothesis =>
      obtain ⟨fuel, rfl⟩ := Nat.exists_eq_add_one.mpr (Nat.zero_lt_of_lt enough)
      by_cases container : item.IsContainer
      · have visible : ∀ child ∈ item.child,
            Visible (child.printValue (depth + 1) fmt) := by
          intro child present
          exact visible_printValue
            (printable.of_mem_child container present).node (depth + 1) fmt
        have reads (shorter : ∀ child ∈ item.child,
            (child.printValue (depth + 1) fmt).length < fuel) :
            ∀ child ∈ item.child,
              ReadsValue (parseValue fuel)
                (child.printValue (depth + 1) fmt) child.reread := by
          intro child present after delimited new
          exact inductionHypothesis child present
            (printable.of_mem_child container present) (depth + 1)
            (shorter child present) new fun _ => delimited
        rcases container with type | type
        · rw [printValue_array depth fmt type] at enough ⊢
          have shorter : ∀ child ∈ item.child,
              (child.printValue (depth + 1) fmt).length < fuel := by
            intro child present
            have part := length_lt_printArray
              (fun child => child.printValue (depth + 1) fmt) fmt present
            exact Nat.lt_of_lt_of_le part (Nat.le_of_lt_succ enough)
          have readsUnnamed : ∀ child ∈ item.child,
              ReadsValue (parseValue fuel)
                (child.printValue (depth + 1) fmt)
                { child.reread with string := none } := by
            intro child present after delimited new
            rw [content_with_string]
            exact reads shorter child present delimited new
          obtain ⟨children, read, sameContents⟩ :=
            parseValue_printArray visible readsUnnamed (fun _ _ => rfl) fmt new
              rest
          refine ⟨_, read, rfl, ?_⟩
          rw [content_array rfl, reread_array type, sameContents]
        · rw [printValue_object depth fmt type] at enough ⊢
          have shorter : ∀ child ∈ item.child,
              (child.printValue (depth + 1) fmt).length < fuel := by
            intro child present
            have part := length_lt_printObject
              (fun child => printStringPtr child.string)
              (fun child => child.printValue (depth + 1) fmt) depth fmt present
            exact Nat.lt_of_lt_of_le part (Nat.le_of_lt_succ enough)
          obtain ⟨children, read, sameContents⟩ :=
            parseValue_printObject visible (reads shorter)
              (printable.node.members type) reread_string depth fmt new rest
          refine ⟨_, read, rfl, ?_⟩
          rw [content_object rfl, reread_object type, sameContents]
      · exact parseValue_printValue_of_not_isContainer printable.node container
          depth fmt fuel new delimited

/-- `cJSON_Parse` reads what `cJSON_Print` and `cJSON_PrintUnformatted` write,
up to the digits of numbers. Only a number needs to be followed by something,
which may be a terminator. -/
theorem parse_printValue_reread
    {item : CJSON}
    (printable : item.Printable)
    (fmt : Bool)
    {rest : Bytes}
    (delimited : item.type = .number → Delimited rest) :
    ∃ child, parse (item.printValue 0 fmt ++ rest) = .ok child ∧
      child.string = none ∧ child.content = item.reread.content := by
  have skipped := (visible_printValue printable.node 0 fmt).skip isBlank_nil rest
  have enough : (item.printValue 0 fmt).length <
      (item.printValue 0 fmt ++ rest).length + 1 := by
    rw [List.length_append]
    omega
  obtain ⟨child, read, unnamed, sameContent⟩ :=
    parseValue_printValue printable 0 fmt enough newItem delimited
  rw [List.nil_append] at skipped
  refine ⟨child, ?_, unnamed, sameContent⟩
  simp only [parse, parseWithOpts, skipped, Outcome.ok_bind, read]
  rfl

/-- A well-formed tree is read back as it was. -/
theorem parse_printValue
    {item : CJSON}
    (wellFormed : item.WellFormed)
    (fmt : Bool)
    {rest : Bytes}
    (delimited : item.type = .number → Delimited rest) :
    ∃ child, parse (item.printValue 0 fmt ++ rest) = .ok child ∧
      child.string = none ∧ child.content = item.content := by
  obtain ⟨child, read, unnamed, sameContent⟩ :=
    parse_printValue_reread wellFormed.printable fmt delimited
  exact ⟨child, read, unnamed, sameContent.trans wellFormed.reread_content⟩

end CJSON
end ProtobufSandbox
