import ProtobufSandbox.Json.File
import ProtobufSandbox.Json.TextGrammar

/-!
# The buffer of a file

`readJSONFromFile` parses a file in a buffer of the size of the file, with no
zero byte behind it. The parser stays inside the buffer unless the file ends
inside the value that it begins with.
-/

namespace ProtobufSandbox
namespace CJSON

/-- `cJSON_Parse` examines bytes of the buffer only, also after it has left a
string that it writes. -/
def ExaminesInside (JSONBuf : Bytes) : Prop :=
  parse JSONBuf ≠ .error .outOfBounds ∧ scan JSONBuf ≠ .error .outOfBounds

/-- A parse that reads behind the buffer does so where the scan does. -/
theorem endsInside_of_parse
    {JSONBuf : Bytes}
    (failed : parse JSONBuf = .error .outOfBounds) :
    EndsInside JSONBuf := by
  have follows := (parseWithOpts_follows JSONBuf).of_eq_error
    (parse_eq_error_iff.mp failed)
  exact (scan_eq_outOfBounds_iff JSONBuf).mp (follows.resolve_left nofun)

/-- Where the scan reads behind the buffer the parse does, unless it writes
behind a string before. -/
theorem parse_of_endsInside
    {JSONBuf : Bytes}
    (endsInside : EndsInside JSONBuf) :
    parse JSONBuf = .error .overflow ∨ parse JSONBuf = .error .outOfBounds := by
  have follows := (parseWithOpts_follows JSONBuf).eq_error
    ((scan_eq_outOfBounds_iff JSONBuf).mpr endsInside)
  exact follows.imp parse_eq_error_iff.mpr parse_eq_error_iff.mpr

/-- The parser stays inside the buffer of a file exactly if the file does not end
inside the value that it begins with. -/
theorem examinesInside_iff (JSONBuf : Bytes) :
    ExaminesInside JSONBuf ↔ ¬ EndsInside JSONBuf := by
  constructor
  · intro inside endsInside
    exact inside.2 ((scan_eq_outOfBounds_iff JSONBuf).mpr endsInside)
  · intro complete
    constructor
    · exact fun failed => complete (endsInside_of_parse failed)
    · exact fun failed => complete ((scan_eq_outOfBounds_iff JSONBuf).mp failed)

/-- On a file with a digit the parser looks for a second one behind the
buffer. -/
theorem examinesInside_digit : ¬ ExaminesInside (ascii ['7']) := by
  rintro ⟨-, inside⟩
  exact inside (by decide)

end CJSON

namespace FileSystem

variable {Files : Type}

/-- Loading a file that does not end inside its value stays inside the buffer. -/
theorem readJSONFromFile_ne_outOfBounds
    (system : FileSystem Files)
    (files : Files)
    (JSONObject : Option CJSON)
    (filename : Bytes)
    (complete : ∀ JSONBuf,
      system.contents files (CString.ofBuffer filename) = some JSONBuf →
        ¬ CJSON.EndsInside JSONBuf) :
    system.readJSONFromFile files JSONObject filename ≠
      .error (.parse .outOfBounds) := by
  intro failed
  obtain ⟨JSONBuf, held, left⟩ := parse_of_readJSONFromFile failed
  exact complete JSONBuf held (CJSON.endsInside_of_parse left)

end FileSystem
end ProtobufSandbox
