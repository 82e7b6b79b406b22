import ProtobufSandbox.Foundation.OrderedMap
import ProtobufSandbox.Foundation.StringStream
import ProtobufSandbox.Json.Object
import ProtobufSandbox.Json.Print

/-!
# Maps of numbers

The functions of `CNT_JSON` that write a map of numbers as an object and read one back.
An integer key passes through a stream. What the readers do to a map is determined by
the keys that the names of the numbers are read as. A number without a name spoils the
stream: no integer is extracted from it, and its text is empty.
-/

namespace ProtobufSandbox
namespace CJSON

/-! ## Writers -/

/-- The loop of the writers; `writeKey` is the text of a key. -/
def mapToJSONLoop
    (writeKey : StringStream → κ → StringStream × Bytes) :
    List (κ × Rat) → StringStream → CJSON → CJSON
  | [], _, JSONObj => JSONObj
  | statPair :: rest, ss, JSONObj =>
      let written := writeKey ss statPair.1
      mapToJSONLoop writeKey rest written.1
        (JSONObj.addItemToObject (CString.ofBuffer written.2)
          (some (createNumber statPair.2)))

/-- `MapToJSON_Str_Double`. -/
def mapToJSONStrDouble (map_double : OrderedMap Bytes Rat) : Bool × CJSON :=
  (true, mapToJSONLoop (fun ss key => (ss, key)) map_double.entries .new createObject)

/-- An integer key is written to the stream, and its text taken from there. -/
def writeIntKey (ss : StringStream) (key : Int32) : StringStream × Bytes :=
  let written := (ss.clear.setText []).write (formatInt key)
  (written, written.text)

/-- `MapToJSON_Int_Double`. -/
def mapToJSONIntDouble (map_double : OrderedMap Int32 Rat) : Bool × CJSON :=
  (true, mapToJSONLoop writeIntKey map_double.entries .new createObject)

/-! ## Readers -/

section Readers

variable {κ : Type} [LE κ] [LT κ] [DecidableLT κ] [DecidableEq κ]
variable [Std.IsLinearOrder κ] [Std.LawfulOrderLT κ]

/-- The loop of the readers; `readKey` takes the key from the stream, if it can. -/
def jsonToMapLoop
    (readKey : StringStream → StringStream × Option κ) :
    List CJSON → StringStream → OrderedMap κ Rat → Bool × OrderedMap κ Rat
  | [], _, map_double => (true, map_double)
  | item :: next, ss, map_double =>
      -- Only numbers are wanted.
      if item.type ≠ .number then jsonToMapLoop readKey next ss map_double
      else
        let read := readKey ((ss.clear.setText []).writePointer item.name)
        match read.2 with
        | none => (false, map_double)
        | some key =>
            jsonToMapLoop readKey next read.1 (map_double.put key item.valuedouble)

/-- Both readers. -/
def jsonToMap
    (readKey : StringStream → StringStream × Option κ)
    (JSONObj : List CJSON)
    (map_double : OrderedMap κ Rat) : Bool × OrderedMap κ Rat :=
  match JSONObj with
  | [] => (false, map_double)
  | object :: _ => jsonToMapLoop readKey object.child .new map_double

end Readers

/-- `JSONToMap_Str_Double`: the key is the text of the stream. -/
def jsonToMapStrDouble :
    List CJSON → OrderedMap Bytes Rat → Bool × OrderedMap Bytes Rat :=
  jsonToMap fun ss => (ss, some ss.text)

/-- `JSONToMap_Int_Double`: the key is extracted from the stream. -/
def jsonToMapIntDouble :
    List CJSON → OrderedMap Int32 Rat → Bool × OrderedMap Int32 Rat :=
  jsonToMap StringStream.readInt

/-! ## What a reader makes of the numbers -/

/-- The numbers in a chain. -/
def numbers (items : List CJSON) : List CJSON :=
  items.filter fun item => decide (item.type = .number)

/-- The key that the name of an item, or its absence, is read as. -/
def memberKey (scan : Option Bytes → Option κ) (item : CJSON) : Option κ :=
  scan item.name

/-- The name of an item is not read as a key. -/
def Rejected (scan : Option Bytes → Option κ) (item : CJSON) : Prop :=
  memberKey scan item = none

/-- An integer is read from a name that begins with one. -/
def scanName (name : Option Bytes) : Option Int32 :=
  name.bind StringStream.scanInt

/-- The names of the items are read as the keys of the entries, which have the values
of the items. -/
def ReadAs (scan : Option Bytes → Option κ) (items : List CJSON) (entries : List (κ × Rat)) : Prop :=
  List.Forall₂
    (fun item entry => memberKey scan item = some entry.1 ∧ item.valuedouble = entry.2)
    items entries

/-- The members of an object that are numbers. -/
def numberMembers (object : CJSON) : List CJSON :=
  numbers object.child

theorem readAs_cons_iff {item : CJSON} {items : List CJSON} {entries : List (κ × Rat)} :
    ReadAs scan (item :: items) entries ↔
      ∃ key rest, memberKey scan item = some key ∧ ReadAs scan items rest ∧
        entries = (key, item.valuedouble) :: rest := by
  rw [ReadAs, List.forall₂_cons_left_iff]
  constructor
  · rintro ⟨⟨key, value⟩, rest, ⟨read, rfl⟩, later, rfl⟩
    exact ⟨key, rest, read, later, rfl⟩
  · rintro ⟨key, rest, read, later, rfl⟩
    exact ⟨(key, item.valuedouble), rest, ⟨read, rfl⟩, later, rfl⟩

/-- Each item has its entry. -/
theorem ReadAs.exists_entry
    {scan : Option Bytes → Option κ}
    {items : List CJSON}
    {entries : List (κ × Rat)}
    (read : ReadAs scan items entries)
    {item : CJSON}
    (present : item ∈ items) :
    ∃ key, memberKey scan item = some key ∧ (key, item.valuedouble) ∈ entries := by
  induction items generalizing entries with
  | nil => cases present
  | cons first items inductionHypothesis =>
      obtain ⟨key, rest, readFirst, later, rfl⟩ := readAs_cons_iff.mp read
      rcases List.mem_cons.mp present with rfl | behind
      · exact ⟨key, readFirst, List.mem_cons_self⟩
      · obtain ⟨other, readOther, found⟩ := inductionHypothesis later behind
        exact ⟨other, readOther, List.mem_cons_of_mem _ found⟩

/-- Names that are all read have entries. -/
theorem exists_readAs
    {scan : Option Bytes → Option κ}
    {items : List CJSON}
    (read : ∀ item ∈ items, ∃ key, memberKey scan item = some key) :
    ∃ entries, ReadAs scan items entries := by
  induction items with
  | nil => exact ⟨[], .nil⟩
  | cons item items inductionHypothesis =>
      obtain ⟨⟨key, first⟩, others⟩ := List.forall_mem_cons.mp read
      obtain ⟨entries, later⟩ := inductionHypothesis others
      exact ⟨_, readAs_cons_iff.mpr ⟨key, entries, first, later, rfl⟩⟩

/-- The member that an entry becomes. -/
def numberMember (text : κ → Bytes) (entry : κ × Rat) : CJSON :=
  { createNumber entry.2 with string := some (CString.ofBuffer (text entry.1)) }

/-- The writers add a number for each entry. -/
theorem child_mapToJSONLoop
    {writeKey : StringStream → κ → StringStream × Bytes}
    {text : κ → Bytes}
    (writes : ∀ ss key, (writeKey ss key).2 = text key)
    (entries : List (κ × Rat))
    (ss : StringStream)
    (JSONObj : CJSON) :
    (mapToJSONLoop writeKey entries ss JSONObj).child =
      JSONObj.child ++ entries.map (numberMember text) := by
  induction entries generalizing ss JSONObj with
  | nil => exact (List.append_nil _).symm
  | cons statPair rest inductionHypothesis =>
      rw [mapToJSONLoop, inductionHypothesis, writes, List.map_cons, List.append_cons]
      rfl

section Spec

variable {κ : Type} [LE κ] [LT κ] [DecidableLT κ] [DecidableEq κ]
variable [Std.IsLinearOrder κ] [Std.LawfulOrderLT κ]
variable {scan : Option Bytes → Option κ} {map_double result : OrderedMap κ Rat}

/-- The loop of a reader without its stream: every name is read afresh. -/
def readNumbers (scan : Option Bytes → Option κ) :
    List CJSON → OrderedMap κ Rat → Bool × OrderedMap κ Rat
  | [], map_double => (true, map_double)
  | item :: next, map_double =>
      match memberKey scan item with
      | none => (false, map_double)
      | some key => readNumbers scan next (map_double.put key item.valuedouble)

theorem readNumbers_of_rejected
    {item : CJSON}
    (rejected : memberKey scan item = none)
    (next : List CJSON) :
    readNumbers scan (item :: next) map_double = (false, map_double) := by
  rw [readNumbers, rejected]

theorem readNumbers_of_read
    {item : CJSON}
    {key : κ}
    (read : memberKey scan item = some key)
    (next : List CJSON) :
    readNumbers scan (item :: next) map_double =
      readNumbers scan next (map_double.put key item.valuedouble) := by
  rw [readNumbers, read]

/-- The stream is cleared in front of every name. -/
theorem jsonToMapLoop_eq
    {readKey : StringStream → StringStream × Option κ}
    (reads : ∀ name, (readKey (StringStream.new.writePointer name)).2 = scan name)
    (items : List CJSON)
    (ss : StringStream)
    (map_double : OrderedMap κ Rat) :
    jsonToMapLoop readKey items ss map_double =
      readNumbers scan (numbers items) map_double := by
  induction items generalizing ss map_double with
  | nil => rfl
  | cons item next inductionHypothesis =>
      rw [jsonToMapLoop, numbers, List.filter_cons, ← numbers]
      by_cases number : item.type = .number
      · rw [if_neg (not_not_intro number), decide_eq_true number, if_pos rfl, readNumbers,
          memberKey, StringStream.setText_clear]
        dsimp only
        rw [reads]
        cases scan item.name with
        | none => rfl
        | some key => exact inductionHypothesis _ _
      · rw [if_pos number, decide_eq_false number, if_neg Bool.false_ne_true]
        exact inductionHypothesis ss map_double

/-- A reader returns true where it reads the names of all numbers, and their entries
are put into the map. -/
theorem readNumbers_eq_true_iff {items : List CJSON} :
    readNumbers scan items map_double = (true, result) ↔
      ∃ entries, ReadAs scan items entries ∧ result = map_double.putAll entries := by
  induction items generalizing map_double with
  | nil =>
      rw [readNumbers]
      constructor
      · intro same
        cases same
        exact ⟨[], .nil, rfl⟩
      · rintro ⟨entries, read, rfl⟩
        cases read
        rfl
  | cons item items inductionHypothesis =>
      simp only [readAs_cons_iff]
      cases read : memberKey scan item with
      | none => simp [readNumbers_of_rejected read]
      | some key =>
          rw [readNumbers_of_read read]
          refine inductionHypothesis.trans ⟨?_, ?_⟩
          · rintro ⟨entries, later, rfl⟩
            exact ⟨_, ⟨key, entries, rfl, later, rfl⟩, rfl⟩
          · rintro ⟨_, ⟨other, entries, same, later, rfl⟩, rfl⟩
            cases same
            exact ⟨entries, later, rfl⟩

/-- A reader returns false at the first name that it rejects, and has put the entries
of the numbers in front of it into the map. -/
theorem readNumbers_eq_false_iff {items : List CJSON} :
    readNumbers scan items map_double = (false, result) ↔
      ∃ before member after entries, items = before ++ member :: after ∧
        Rejected scan member ∧ ReadAs scan before entries ∧
        result = map_double.putAll entries := by
  induction items generalizing map_double with
  | nil => simp [readNumbers]
  | cons item items inductionHypothesis =>
      constructor
      · intro returned
        cases read : memberKey scan item with
        | none =>
            rw [readNumbers_of_rejected read] at returned
            cases returned
            exact ⟨[], item, items, [], rfl, read, .nil, rfl⟩
        | some key =>
            rw [readNumbers_of_read read] at returned
            obtain ⟨before, member, after, entries, rfl, rejected, earlier, rfl⟩ :=
              inductionHypothesis.mp returned
            exact ⟨item :: before, member, after, _, rfl, rejected,
              readAs_cons_iff.mpr ⟨key, entries, read, earlier, rfl⟩, rfl⟩
      · rintro ⟨before, member, after, entries, split, rejected, earlier, rfl⟩
        cases before with
        | nil =>
            cases split
            cases earlier
            exact readNumbers_of_rejected rejected _
        | cons first before =>
            cases split
            obtain ⟨key, rest, read, later, rfl⟩ := readAs_cons_iff.mp earlier
            rw [readNumbers_of_read read]
            exact inductionHypothesis.mpr
              ⟨before, member, after, rest, rfl, rejected, later, rfl⟩

/-! ## Round trips -/

/-- An object that is written is read back into the map. -/
theorem jsonToMap_mapToJSONLoop
    {writeKey : StringStream → κ → StringStream × Bytes}
    {readKey : StringStream → StringStream × Option κ}
    {text : κ → Bytes}
    (writes : ∀ ss key, (writeKey ss key).2 = text key)
    (reads : ∀ name, (readKey (StringStream.new.writePointer name)).2 = scan name)
    {written : OrderedMap κ Rat}
    (scans : ∀ entry ∈ written.entries,
      scan (some (CString.ofBuffer (text entry.1)).val) = some entry.1)
    (map_double : OrderedMap κ Rat) :
    ∃ result,
      jsonToMap readKey [mapToJSONLoop writeKey written.entries .new createObject]
          map_double = (true, result) ∧
        ∀ key, result.find key = (written.find key).or (map_double.find key) := by
  have all : numbers (written.entries.map (numberMember text)) =
      written.entries.map (numberMember text) := by
    rw [numbers, List.filter_eq_self, List.forall_mem_map]
    exact fun entry _ => rfl
  have read : ReadAs scan (written.entries.map (numberMember text)) written.entries := by
    rw [ReadAs, List.forall₂_map_left_iff, List.forall₂_same]
    exact fun entry present => ⟨scans entry present, rfl⟩
  refine ⟨map_double.putAll written.entries, ?_, fun key => ?_⟩
  · rw [jsonToMap, jsonToMapLoop_eq reads, child_mapToJSONLoop writes]
    exact readNumbers_eq_true_iff.mpr ⟨_, all.symm ▸ read, rfl⟩
  · rw [OrderedMap.find_putAll, OrderedMap.lookup_reverse_entries]

end Spec

open StringStream

theorem zero_not_mem_formatInt (key : Int32) : (0 : UInt8) ∉ formatInt key := by
  unfold formatInt
  split <;> simp [minus, zero_not_mem_digits]

/-- The text of an integer begins with the integer. -/
theorem beginsWithInt_formatInt (key : Int32) : BeginsWithInt (formatInt key) key := by
  have notEmpty : Decimal.digits key.toInt.natAbs ≠ [] := by
    obtain ⟨first, rest, split, -⟩ := Decimal.exists_digits_eq_cons key.toInt.natAbs
    rw [split]
    exact List.cons_ne_nil first rest
  have digits (byte : UInt8) (present : byte ∈ Decimal.digits key.toInt.natAbs) :
      Decimal.isDigit byte = true := Decimal.isDigit_of_mem_digits present
  have ends : ∀ byte ∈ ([] : Bytes).head?, Decimal.isDigit byte = false := by simp
  rw [formatInt]
  split
  case isTrue negative =>
    refine ⟨[], [minusSign], _, [], ?_, by simp, .inr (.inr rfl), notEmpty, digits, ends, ?_⟩
    · rw [List.append_nil]
      rfl
    · rw [signedValue, Decimal.foldl_extend_digits, if_pos (by decide)]
      omega
  case isFalse positive =>
    refine ⟨[], [], _, [], ?_, by simp, .inl rfl, notEmpty, digits, ends, ?_⟩
    · rw [List.append_nil]
      rfl
    · rw [signedValue, Decimal.foldl_extend_digits, if_neg (by decide)]
      omega

/-- It is extracted again. -/
theorem scanInt_formatInt (key : Int32) : scanInt (formatInt key) = some key :=
  scanInt_eq_some_iff.mpr (beginsWithInt_formatInt key)

/-- Maps that are written to an object and read back override the map that they are
read into. -/
theorem mapToJSON_jsonToMap :
    (∀ m m0 : OrderedMap Int32 Rat,
      (mapToJSONIntDouble m).1 = true ∧
        ∃ result, jsonToMapIntDouble [(mapToJSONIntDouble m).2] m0 = (true, result) ∧
          ∀ key, result.find key = (m.find key).or (m0.find key)) ∧
      ∀ m m0 : OrderedMap Bytes Rat, (∀ entry ∈ m.entries, (0 : UInt8) ∉ entry.1) →
        (mapToJSONStrDouble m).1 = true ∧
          ∃ result, jsonToMapStrDouble [(mapToJSONStrDouble m).2] m0 = (true, result) ∧
            ∀ key, result.find key = (m.find key).or (m0.find key) := by
  constructor
  · intro m m0
    have writes (ss : StringStream) (key : Int32) : (writeIntKey ss key).2 = formatInt key :=
      rfl
    have scans : ∀ entry ∈ m.entries,
        scanName (some (CString.ofBuffer (formatInt entry.1)).val) = some entry.1 := by
      intro entry _
      have whole : (CString.ofBuffer (formatInt entry.1)).val = formatInt entry.1 :=
        cString_eq_self (zero_not_mem_formatInt entry.1)
      rw [whole, scanName, Option.bind_some, scanInt_formatInt]
    exact ⟨rfl, jsonToMap_mapToJSONLoop writes readInt_writePointer_new scans m0⟩
  · intro m m0 nonzero
    have writes (ss : StringStream) (key : Bytes) : (ss, key).2 = key := rfl
    have scans : ∀ entry ∈ m.entries,
        some ((some (CString.ofBuffer entry.1).val).getD []) = some entry.1 :=
      fun entry present => congrArg some (cString_eq_self (nonzero entry present))
    have reads (name : Option Bytes) :
        some (StringStream.new.writePointer name).text = some (name.getD []) :=
      congrArg some (text_writePointer_new name)
    exact ⟨rfl, jsonToMap_mapToJSONLoop writes reads scans m0⟩

/-- Two entries each, one of which overrides an entry of the target, and whose keys are
negative in one of the maps. -/
theorem mapToJSON_jsonToMap_overriding :
    (∃ result,
      jsonToMapIntDouble [(mapToJSONIntDouble ⟨[(-2147483648, 1), (7, 2)], by decide⟩).2]
          ⟨[(7, 3), (12, 4)], by decide⟩ = (true, result) ∧
        result.find (-2147483648) = some 1 ∧ result.find 7 = some 2 ∧
        result.find 12 = some 4) ∧
      ∃ result,
        jsonToMapStrDouble
            [(mapToJSONStrDouble ⟨[(ascii ['a'], 1), (ascii ['b'], 2)], by decide⟩).2]
            ⟨[(ascii ['b'], 3), (ascii ['c'], 4)], by decide⟩ = (true, result) ∧
          result.find (ascii ['a']) = some 1 ∧ result.find (ascii ['b']) = some 2 ∧
          result.find (ascii ['c']) = some 4 := by
  obtain ⟨-, result, returned, found⟩ :=
    mapToJSON_jsonToMap.1 ⟨[(-2147483648, 1), (7, 2)], by decide⟩
      ⟨[(7, 3), (12, 4)], by decide⟩
  obtain ⟨-, other, returnedOther, foundOther⟩ :=
    mapToJSON_jsonToMap.2 ⟨[(ascii ['a'], 1), (ascii ['b'], 2)], by decide⟩
      ⟨[(ascii ['b'], 3), (ascii ['c'], 4)], by decide⟩ (by decide)
  exact ⟨⟨result, returned, found _, found _, found _⟩,
    other, returnedOther, foundOther _, foundOther _, foundOther _⟩

end CJSON
end ProtobufSandbox
