import ProtobufSandbox.Json.Progress
import ProtobufSandbox.Json.RoundTrip

/-!
# Trees in files

`writeJSONToFile` and `readJSONFromFile`. The file system is a parameter: a
state of any type, with the operations that the two functions ask of it. Where
it keeps what is written, a saved tree is loaded as a tree that says the same.
-/

namespace ProtobufSandbox

/-- The operations on files, by name, on a state of the file system. -/
structure FileSystem (Files : Type) where
  /-- `open` of an output stream. It truncates, or it fails. -/
  create : Files → CString → Option Files
  /-- `write` to an open output stream and `close`, with the stream's `bad`. -/
  write : Files → CString → Bytes → Bool × Files
  /-- The `st_mode` that `stat` finds, unless it fails. -/
  stat : Files → CString → Option UInt32
  /-- The bytes that an input stream gives, unless it does not open. -/
  contents : Files → CString → Option Bytes

/-- How `readJSONFromFile` can fail to return. -/
inductive ReadError where
  /-- The parser leaves one of its buffers. -/
  | parse (error : ParseError)
  /-- `new char[size]` with the `size` -1 of a stream that is not open. -/
  | badArrayNewLength
  deriving DecidableEq

variable {Files : Type}

namespace FileSystem

/-- `writeJSONToFile`. -/
def writeJSONToFile
    (system : FileSystem Files)
    (files : Files)
    (JSONObject : CJSON)
    (filename : Bytes) :
    Bool × Files :=
  let JSONBuf := cString JSONObject.print
  if JSONBuf.length = 0 then (false, files)
  else
    let name := CString.ofBuffer filename
    match system.create files name with
    | none => (false, files)
    | some opened =>
        let (bad, written) := system.write opened name JSONBuf
        (!bad, written)

/-- The permission bits that `readJSONFromFile` looks for: `S_IROTH`, `S_IRGRP`
and `S_IRUSR`. -/
def isReadable (st_mode : UInt32) : Bool :=
  decide (st_mode &&& 0o004 ≠ 0 ∨ st_mode &&& 0o040 ≠ 0 ∨
    st_mode &&& 0o400 ≠ 0)

/-- `readJSONFromFile`, from the value of `*JSONObject` before the call: what it
returns, and the value after it. -/
def readJSONFromFile
    (system : FileSystem Files)
    (files : Files)
    (JSONObject : Option CJSON)
    (filename : Bytes) :
    Except ReadError (Bool × Option CJSON) :=
  let name := CString.ofBuffer filename
  match system.stat files name with
  | none => .ok (false, JSONObject)
  | some st_mode =>
      if isReadable st_mode then
        -- The comma in the condition makes it true, open or not.
        match system.contents files name with
        | none => .error .badArrayNewLength
        | some JSONBuf =>
            match CJSON.parse JSONBuf with
            | .ok item => .ok (true, some item)
            | .error (.malformed _) => .ok (false, none)
            | .error error => .error (.parse error)
      else .ok (false, JSONObject)

/-- Where loading a file fails in the parser, the parser fails on what the file
holds. -/
theorem parse_of_readJSONFromFile
    {system : FileSystem Files}
    {files : Files}
    {JSONObject : Option CJSON}
    {filename : Bytes}
    {error : ParseError}
    (failed : system.readJSONFromFile files JSONObject filename =
      .error (.parse error)) :
    ∃ JSONBuf, system.contents files (CString.ofBuffer filename) = some JSONBuf ∧
      CJSON.parse JSONBuf = .error error := by
  simp only [readJSONFromFile] at failed
  split at failed
  · cases failed
  · split at failed
    · split at failed
      · cases failed
      · next JSONBuf held =>
          split at failed
          · cases failed
          · cases failed
          · next parseFailed =>
              cases failed
              exact ⟨JSONBuf, held, parseFailed⟩
    · cases failed

/-- Loading a file comes to an end, whatever the file holds. -/
theorem readJSONFromFile_ne_outOfFuel
    (system : FileSystem Files)
    (files : Files)
    (JSONObject : Option CJSON)
    (filename : Bytes) :
    system.readJSONFromFile files JSONObject filename ≠
      .error (.parse .outOfFuel) := by
  intro exhausted
  obtain ⟨JSONBuf, -, failed⟩ := parse_of_readJSONFromFile exhausted
  exact CJSON.parse_ne_outOfFuel JSONBuf failed

/-- A file that can be written and read under a name, and that holds exactly the
bytes written to it. -/
def Keeps
    (system : FileSystem Files)
    (files : Files)
    (name : CString) :
    Prop :=
  ∃ opened, system.create files name = some opened ∧
    ∀ data, ∃ written st_mode,
      system.write opened name data = (false, written) ∧
      system.stat written name = some st_mode ∧ isReadable st_mode ∧
      system.contents written name = some data

/-- Files in memory, all of them readable and writable. -/
def inMemory : FileSystem (CString → Option Bytes) where
  create files name := some (Function.update files name (some []))
  write files name data :=
    (false,
      Function.update files name ((files name).map fun held => held ++ data))
  stat files name := (files name).map fun _ => 0o100644
  contents files name := files name

theorem keeps_inMemory
    (files : CString → Option Bytes)
    (name : CString) :
    inMemory.Keeps files name := by
  refine ⟨_, rfl, fun data => ⟨_, 0o100644, rfl, ?_, by decide, ?_⟩⟩
  · simp [inMemory]
  · simp [inMemory]

/-- A saved array or object is loaded as it was: the same types, names, order,
strings and numbers at every depth. -/
theorem readJSONFromFile_writeJSONToFile
    (system : FileSystem Files)
    (files : Files)
    (filename : Bytes)
    (keeps : system.Keeps files (CString.ofBuffer filename))
    {item : CJSON}
    (wellFormed : item.WellFormed)
    (container : item.IsContainer)
    (unnamed : item.string = none)
    (before : Option CJSON) :
    (system.writeJSONToFile files item filename).1 = true ∧
      ∃ loaded,
        system.readJSONFromFile
            (system.writeJSONToFile files item filename).2 before filename =
          .ok (true, some loaded) ∧
        loaded.Same item := by
  obtain ⟨opened, created, holds⟩ := keeps
  obtain ⟨written, st_mode, wrote, found, readable, held⟩ := holds item.print
  have size : cString item.print = item.print :=
    cString_eq_self (item.zero_not_mem_printValue 0 true)
  have nonempty : item.print.length ≠ 0 := by
    obtain ⟨first, tail, starts, _⟩ :=
      CJSON.visible_printValue wellFormed.printable.node 0 true
    rw [CJSON.print, starts]
    exact Nat.succ_ne_zero _
  have saved : system.writeJSONToFile files item filename = (true, written) := by
    simp only [writeJSONToFile, size, if_neg nonempty, created, wrote,
      Bool.not_false]
  have notNumber : item.type = .number → CJSON.Delimited [] := by
    intro number
    rcases container with array | object
    · rw [number] at array
      cases array
    · rw [number] at object
      cases object
  obtain ⟨loaded, parsed, loadedUnnamed, sameContent⟩ :=
    CJSON.parse_printValue wellFormed true notNumber
  rw [List.append_nil] at parsed
  rw [saved]
  refine ⟨rfl, loaded, ?_, loadedUnnamed.trans unnamed.symm, sameContent⟩
  have parsedFile : CJSON.parse item.print = .ok loaded := parsed
  simp only [readJSONFromFile, found, if_pos readable, held, parsedFile]

/-- An object with a name of which every byte but one is escaped, and with the
least integer, a byte from 128 on and an empty object below it. -/
def sample : CJSON :=
  let least := { CJSON.newItem with
    type := .number
    valueint := -2147483648
    valuedouble := -2147483648 }
  let text := { CJSON.newItem with
    type := .string
    valuestring := some ⟨[0xC3], by decide⟩ }
  let elements := { CJSON.newItem with
    type := .array
    string := some ⟨[quote, backslash, newline, 0x01, 0x41], by decide⟩
    child := [least, text, { CJSON.newItem with type := .object }] }
  let truth := { CJSON.newItem with
    type := .true
    string := some ⟨[], by decide⟩ }
  { CJSON.newItem with type := .object, child := [elements, truth] }

theorem readJSONFromFile_writeJSONToFile_sample :
    (inMemory.writeJSONToFile (fun _ => none) sample (ascii ['f'])).1 = true ∧
      ∃ loaded,
        inMemory.readJSONFromFile
            (inMemory.writeJSONToFile (fun _ => none) sample (ascii ['f'])).2
            none (ascii ['f']) =
          .ok (true, some loaded) ∧
        loaded.Same sample :=
  readJSONFromFile_writeJSONToFile inMemory (fun _ => none) (ascii ['f'])
    (keeps_inMemory _ _) (by decide) (by decide) rfl none

end FileSystem
end ProtobufSandbox
