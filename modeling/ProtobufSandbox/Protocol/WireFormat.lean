import ProtobufSandbox.Protocol.Payload

/-!
# Reading commands

What is relied on of `ParseFromString`, and a parser that can be relied on. It reads one
field after another, keeps those that it has read when the input ends within the next
one, and of a text that is cut off what there is of it.
-/

namespace ProtobufSandbox

/-! ## What is relied on of the parser -/

/-- The record of an id: a tag and a value. -/
def IsIdRecord (bytes : Bytes) : Prop :=
  ∃ tag value, Varint.IsVarint tag ∧ Varint.IsVarint value ∧
    bytes = tag ++ value

/-- The record of a method: a tag, a length and the text read. The length may be
missing at the end of the input, and the text is then empty. -/
def IsMethodRecord (text bytes : Bytes) : Prop :=
  ∃ tag, Varint.IsVarint tag ∧
    ((text = [] ∧ bytes = tag) ∨
      ∃ length, Varint.IsVarint length ∧ bytes = tag ++ length ++ text)

/-- `ParseFromString` undoes the encoding of a command, and never makes up a
field: where it leaves both fields set, it read each from a record of its own. -/
structure ReadsWireFormat (parseFromString : Bytes → Command) : Prop where
  undoes : ∀ value text,
    parseFromString (Command.of value text).serializeToString = .of value text
  records : ∀ input value text, parseFromString input = .of value text →
    ∃ before between after idRecord methodRecord,
      IsIdRecord idRecord ∧ IsMethodRecord text methodRecord ∧
        (input = before ++ idRecord ++ between ++ methodRecord ++ after ∨
          input = before ++ methodRecord ++ between ++ idRecord ++ after)

/-! ## A parser of commands -/

/-- A field that is read. -/
inductive CommandField
  | id (value : Int32)
  | method (text : Bytes)

/-- A field is set, whatever it was before. -/
def Command.setField (command : Command) : CommandField → Command
  | .id value => { command with id_ := some value }
  | .method text => { command with method_ := some text }

/-- The field that the input begins with, and what follows it; nothing does if the input
ends within it. There is none behind a tag of another field. -/
def readField (input : Bytes) : Option (CommandField × Option Bytes) :=
  match Varint.decode input with
  | none => none
  | some (tag, rest) =>
      if tag = 0x08 then
        (Varint.decode rest).map fun (value, rest) =>
          (.id (int32OfVarint value), some rest)
      else if tag = 0x12 then
        match Varint.decode rest with
        -- The field is set before its length is read.
        | none => some (.method [], none)
        | some (length, rest) =>
            some (.method (rest.take length),
              if length ≤ rest.length then some (rest.drop length) else none)
      else none

/-- The fields that are read, in order. -/
def readFields : Nat → Bytes → List CommandField
  | 0, _ => []
  | fields + 1, input =>
      match readField input with
      | none => []
      | some (field, none) => [field]
      | some (field, some rest) => field :: readFields fields rest

/-- `ParseFromString`, up to fields of other numbers. -/
def parseFields (input : Bytes) : Command :=
  (readFields (input.length + 1) input).foldl Command.setField
    { id_ := none, method_ := none }

/-! ## What is read -/

/-- The record of a field. -/
def IsRecord : CommandField → Bytes → Prop
  | .id _ => IsIdRecord
  | .method text => IsMethodRecord text

/-- A field is read from its record, and the next one from what follows it. -/
theorem record_of_readField
    {input : Bytes}
    {field : CommandField}
    {next : Option Bytes}
    (read : readField input = some (field, next)) :
    ∃ record behind, IsRecord field record ∧ input = record ++ behind ∧
      ∀ rest ∈ next, behind = rest := by
  unfold readField at read
  cases tagged : Varint.decode input with
  | none => simp [tagged] at read
  | some tagAndRest =>
      obtain ⟨tag, afterTag⟩ := tagAndRest
      obtain ⟨tagBytes, tagVarint, rfl⟩ := Varint.exists_of_decode tagged
      simp only [tagged] at read
      split at read
      case isTrue =>
        obtain ⟨⟨value, afterValue⟩, decoded, same⟩ := Option.map_eq_some_iff.mp read
        obtain ⟨valueBytes, valueVarint, rfl⟩ := Varint.exists_of_decode decoded
        cases same
        refine ⟨tagBytes ++ valueBytes, afterValue,
          ⟨tagBytes, valueBytes, tagVarint, valueVarint, rfl⟩,
          (List.append_assoc _ _ _).symm, ?_⟩
        rintro rest ⟨⟩
        rfl
      case isFalse =>
        split at read
        case isFalse => cases read
        case isTrue =>
          cases decoded : Varint.decode afterTag with
          | none =>
              simp only [decoded, Option.some.injEq, Prod.mk.injEq] at read
              obtain ⟨rfl, rfl⟩ := read
              exact ⟨tagBytes, afterTag, ⟨tagBytes, tagVarint, .inl ⟨rfl, rfl⟩⟩, rfl,
                fun rest missing => nomatch missing⟩
          | some lengthAndRest =>
              obtain ⟨length, text⟩ := lengthAndRest
              obtain ⟨lengthBytes, lengthVarint, rfl⟩ := Varint.exists_of_decode decoded
              simp only [decoded, Option.some.injEq, Prod.mk.injEq] at read
              obtain ⟨rfl, rfl⟩ := read
              refine ⟨tagBytes ++ lengthBytes ++ text.take length, text.drop length,
                ⟨tagBytes, tagVarint, .inr ⟨lengthBytes, lengthVarint, rfl⟩⟩, ?_, ?_⟩
              · simp only [List.append_assoc, List.take_append_drop]
              · intro rest isRest
                split at isRest
                · exact Option.some.inj isRest
                · cases isRest

/-- The fields that are read have records in the input, one behind the other. -/
theorem records_of_readFields
    {fuel : Nat}
    {input : Bytes}
    {before behind : List CommandField}
    {field : CommandField}
    (read : readFields fuel input = before ++ field :: behind) :
    ∃ front record rest, IsRecord field record ∧ input = front ++ record ++ rest ∧
      (behind ≠ [] → ∃ fuel, readFields fuel rest = behind) := by
  induction fuel generalizing input before with
  | zero => simp [readFields] at read
  | succ fuel inductionHypothesis =>
      rw [readFields] at read
      cases first : readField input with
      | none => simp [first] at read
      | some fieldAndNext =>
          obtain ⟨own, next⟩ := fieldAndNext
          obtain ⟨record, rest, isRecord, rfl, follows⟩ := record_of_readField first
          cases next with
          | none =>
              simp only [first] at read
              obtain ⟨rfl, rfl, rfl⟩ : before = [] ∧ own = field ∧ behind = [] := by
                cases before with
                | nil => simpa using read
                | cons other before => simp at read
              exact ⟨[], record, rest, isRecord, rfl, fun some => absurd rfl some⟩
          | some more =>
              obtain rfl := follows more rfl
              simp only [first] at read
              cases before with
              | nil =>
                  obtain ⟨rfl, rfl⟩ := List.cons.inj read
                  exact ⟨[], record, rest, isRecord, rfl, fun _ => ⟨fuel, rfl⟩⟩
              | cons other before =>
                  obtain ⟨rfl, later⟩ := List.cons.inj read
                  obtain ⟨front, found, last, isFound, rfl, further⟩ :=
                    inductionHypothesis later
                  exact ⟨record ++ front, found, last, isFound,
                    by simp only [List.append_assoc], further⟩

/-- Two fields have records, the first of them in front. -/
theorem records_of_two
    {fuel : Nat}
    {input : Bytes}
    {before between behind : List CommandField}
    {first second : CommandField}
    (read : readFields fuel input = before ++ first :: (between ++ second :: behind)) :
    ∃ front middle rest record other, IsRecord first record ∧ IsRecord second other ∧
      input = front ++ record ++ middle ++ other ++ rest := by
  obtain ⟨front, record, rest, isRecord, rfl, follows⟩ := records_of_readFields read
  obtain ⟨fuel, later⟩ := follows (by simp)
  obtain ⟨middle, other, last, isOther, rfl, -⟩ := records_of_readFields later
  exact ⟨front, middle, last, record, other, isRecord, isOther,
    by simp only [List.append_assoc]⟩

/-! ## Fields that are set -/

/-- A command has the last of the fields that were read, or its own. -/
theorem of_foldl_setField
    {fields : List CommandField}
    {command : Command}
    {value : Int32}
    {text : Bytes}
    (set : fields.foldl Command.setField command = .of value text) :
    (command.id_ = some value ∨ .id value ∈ fields) ∧
      (command.method_ = some text ∨ .method text ∈ fields) := by
  induction fields generalizing command with
  | nil =>
      obtain rfl : command = .of value text := set
      exact ⟨.inl rfl, .inl rfl⟩
  | cons field fields inductionHypothesis =>
      obtain ⟨id, method⟩ := inductionHypothesis set
      cases field with
      | id own =>
          refine ⟨.inr ?_, method.imp_right (List.mem_cons_of_mem _)⟩
          rcases id with same | later
          · exact Option.some.inj same ▸ List.mem_cons_self
          · exact List.mem_cons_of_mem _ later
      | method own =>
          refine ⟨id.imp_right (List.mem_cons_of_mem _), .inr ?_⟩
          rcases method with same | later
          · exact Option.some.inj same ▸ List.mem_cons_self
          · exact List.mem_cons_of_mem _ later

/-- Reading undoes the encoding. -/
theorem parseFields_serializeToString (value : Int32) (text : Bytes) :
    parseFields (Command.of value text).serializeToString = .of value text := by
  have id : readField (Command.of value text).serializeToString =
      some (.id value, some (0x12 :: delimited text)) := by
    have tag : Varint.decode (Command.of value text).serializeToString =
        some (0x08, int32Varint value ++ 0x12 :: delimited text) := rfl
    simp only [readField, tag, if_true, int32Varint, Varint.decode_encode,
      Option.map_some, int32OfVarint_signExtend]
  have method : readField (0x12 :: delimited text) = some (.method text, some []) := by
    have tag : Varint.decode (0x12 :: delimited text) =
        some (0x12, Varint.encode text.length ++ text) := rfl
    have other : ¬ (0x12 : Nat) = 0x08 := by decide
    simp only [readField, tag, if_neg other, if_true, Varint.decode_encode,
      List.take_length, Nat.le_refl, List.drop_length]
  have enough : 2 ≤ (Command.of value text).serializeToString.length := by
    rw [Command.serializeToString_of, List.length_append, List.length_cons,
      List.length_cons]
    omega
  obtain ⟨fuel, long⟩ := Nat.exists_eq_add_of_le' enough
  rw [parseFields, long]
  simp only [readFields, id, method]
  rfl

/-- The parser can be relied on. -/
theorem readsWireFormat_parseFields : ReadsWireFormat parseFields where
  undoes := parseFields_serializeToString
  records := by
    intro input value text parsed
    obtain ⟨id, method⟩ := of_foldl_setField parsed
    have id := id.resolve_left (by simp)
    have method := method.resolve_left (by simp)
    obtain ⟨before, behind, split⟩ := List.append_of_mem id
    rw [split] at method
    rcases List.mem_append.mp method with front | later
    · obtain ⟨earlier, between, rfl⟩ := List.append_of_mem front
      rw [List.append_assoc, List.cons_append] at split
      obtain ⟨front, middle, rest, record, other, isMethod, isId, placed⟩ :=
        records_of_two split
      exact ⟨front, middle, rest, other, record, isId, isMethod, .inr placed⟩
    · obtain ⟨between, last, rfl⟩ :=
        List.append_of_mem ((List.mem_cons.mp later).resolve_left (by simp))
      obtain ⟨front, middle, rest, record, other, isId, isMethod, placed⟩ :=
        records_of_two split
      exact ⟨front, middle, rest, record, other, isId, isMethod, .inl placed⟩

end ProtobufSandbox
