import ProtobufSandbox.Foundation.Separator
import ProtobufSandbox.Socket.ReadLine

/-!
# Lines over successive calls of `readLine`

A connection that is read line by line, as a system whose steps are the calls of
`readLine` that return. A call whose time is over between the first byte and the end of
a line drops what it has read. Where that does not happen, the lines that the calls
return are those that the peer sends.
-/

namespace ProtobufSandbox

open TransitionSystem

/-! ## What the peer sends -/

/-- A line of the peer that fits the buffer, with the byte that ends it. -/
structure StreamLine (bufferLength : Nat) where
  text : Bytes
  ending : UInt8
  ordinary : ∀ value ∈ text, isTerminator value = false
  ends : isTerminator ending = true
  short : text.length < bufferLength

/-- The bytes of the lines, one after the other. -/
def streamBytes {bufferLength : Nat} (lines : List (StreamLine bufferLength)) : Bytes :=
  lines.flatMap fun line => line.text ++ [line.ending]

/-- The texts that are not empty. -/
def nonEmptyLines {bufferLength : Nat} (lines : List (StreamLine bufferLength)) :
    List Bytes :=
  (lines.map StreamLine.text).filter fun text => !text.isEmpty

/-- The answers of `read` bring the bytes of the lines in order, as far as they have
arrived, on a connection that stays open. -/
structure Delivers
    {bufferLength : Nat}
    (lines : List (StreamLine bufferLength))
    (outcomes : List ReadOutcome) : Prop where
  bytes : bytesRead outcomes <+: streamBytes lines
  connected : ReadOutcome.closed ∉ outcomes
  working : ReadOutcome.failed ∉ outcomes

/-! ## The reader -/

/-- The parameters of a call of `readLine`, but for the buffer. -/
structure LineCall where
  timeout_us : Int
  stopOnDisconnect : Bool

/-- A connection that is read line by line: the answers of `read` that are to come, and
what the calls so far have returned. -/
structure LineReader where
  socket : LinuxSocket
  outcomes : List ReadOutcome
  reads : List ReadResult

/-- A call of `readLine` that returns. -/
def LineReader.step
    (bufferLength : Nat)
    (reader : LineReader)
    (call : LineCall) : Option LineReader :=
  (reader.socket.readLineCall bufferLength call.timeout_us call.stopOnDisconnect
    reader.outcomes).map fun returned =>
      { socket := returned.1.socket
        outcomes := returned.2
        reads := reader.reads ++ [returned.1] }

/-- The lines that the calls have returned. -/
def returnedLines (reads : List ReadResult) : List Bytes :=
  (reads.filter fun read => read.returns && decide (0 < read.numRead)).map
    fun read => read.rcvBuffer.take read.numRead.toNat

/-- A call that comes to the first byte of a line comes to the end of the line, as far
as it has arrived, before its time is over. -/
def LineInTime (reader : LineReader) (call : LineCall) : Prop :=
  ∀ idle value middle, idle ++ .byte value :: middle <+: reader.outcomes →
    bytesRead idle = [] → isTerminator value = false →
    (∀ later ∈ bytesRead middle, isTerminator later = false) →
    (idle ≠ [] → 250 * (idle.countP ReadOutcome.isIdle : Int) < call.timeout_us) →
      250 * (middle.countP ReadOutcome.isIdle : Int) < call.timeout_us

/-! ## Beginnings of the stream -/

section Stream

variable {bufferLength : Nat} {lines : List (StreamLine bufferLength)}
variable {outcomes rest : List ReadOutcome}

/-- Text in front of the stream fits the buffer. -/
theorem length_lt_of_isPrefix
    (positive : 0 < bufferLength)
    {text : Bytes}
    (ordinary : ∀ value ∈ text, isTerminator value = false)
    (begins : text <+: streamBytes lines) :
    text.length < bufferLength := by
  cases lines with
  | nil =>
      rw [List.prefix_nil.mp begins]
      exact positive
  | cons line lines =>
      rw [streamBytes, List.flatMap_cons, List.append_assoc] at begins
      have inside := Separator.isPrefix_segment ordinary line.ends
        ((List.append_nil text).symm ▸ begins)
      exact Nat.lt_of_le_of_lt inside.length_le line.short

/-- Text and the end of a line in front of the stream are its first line. -/
theorem exists_line_of_isPrefix
    {text more : Bytes}
    {value : UInt8}
    (ordinary : ∀ value ∈ text, isTerminator value = false)
    (ends : isTerminator value = true)
    (begins : text ++ value :: more <+: streamBytes lines) :
    ∃ line later, lines = line :: later ∧ line.text = text ∧ more <+: streamBytes later := by
  cases lines with
  | nil => simp [streamBytes] at begins
  | cons line lines =>
      rw [streamBytes, List.flatMap_cons, List.append_assoc] at begins
      obtain ⟨same, -, further⟩ :=
        Separator.eq_segment ordinary line.ordinary ends line.ends begins
      exact ⟨line, lines, rfl, same.symm, further⟩

/-- What is left of the answers brings what is left of the lines. -/
theorem Delivers.of_append
    {before : List ReadOutcome}
    (delivers : Delivers lines (before ++ rest))
    {later : List (StreamLine bufferLength)}
    (bytes : bytesRead rest <+: streamBytes later) :
    Delivers later rest :=
  ⟨bytes, fun isClosed => delivers.connected (List.mem_append_right _ isClosed),
    fun isFailed => delivers.working (List.mem_append_right _ isFailed)⟩

end Stream

/-- The time that is left after the first byte. -/
theorem timeLeft_of_firstByte
    (timeout_us : Int)
    {idle : List ReadOutcome}
    (none : bytesRead idle = [])
    (value : UInt8)
    (middle : List ReadOutcome) :
    timeLeft timeout_us (idle ++ .byte value :: middle) =
      timeout_us - 250 * (middle.countP ReadOutcome.isIdle : Nat) := by
  have some : bytesRead (idle ++ .byte value :: middle) ≠ [] := by
    rw [bytesRead_append]
    exact List.append_ne_nil_of_right_ne_nil _ (List.cons_ne_nil value _)
  have since : sinceFirstByte (idle ++ .byte value :: middle) = .byte value :: middle := by
    rw [bytesRead_eq_nil_iff] at none
    rw [sinceFirstByte, if_neg some, List.dropWhile_append_of_pos]
    · rfl
    · intro outcome isIdle
      simp [none outcome isIdle]
  rw [timeLeft, since, List.countP_cons_of_neg]
  simp [ReadOutcome.isIdle]

/-- The answers up to the first byte. -/
theorem exists_firstByte {outcomes : List ReadOutcome} (some : bytesRead outcomes ≠ []) :
    ∃ idle value middle, outcomes = idle ++ .byte value :: middle ∧
      bytesRead idle = [] := by
  induction outcomes with
  | nil => exact absurd rfl some
  | cons outcome outcomes inductionHypothesis =>
      rw [bytesRead_cons] at some
      cases outcome with
      | byte value => exact ⟨[], value, outcomes, rfl, rfl⟩
      | closed | interrupted | wouldBlock | failed =>
          obtain ⟨idle, value, middle, rfl, none⟩ := inductionHypothesis some
          exact ⟨_ :: idle, value, middle, rfl, (bytesRead_cons _ idle).trans none⟩

/-! ## A call of the reader -/

section Call

variable {bufferLength : Nat} {reader : LineReader} {call : LineCall}
variable {before : List ReadOutcome} {outcome : ReadOutcome}

/-- A call in time comes to the end of the line that it has begun. -/
theorem timeLeft_of_lineInTime
    (inTime : LineInTime reader call)
    (keeps : KeepsReading bufferLength call.timeout_us call.stopOnDisconnect before)
    (arrived : before ++ [outcome] <+: reader.outcomes)
    (ordinary : ∀ value ∈ bytesRead (before ++ [outcome]), isTerminator value = false)
    (some : bytesRead (before ++ [outcome]) ≠ []) :
    0 < timeLeft call.timeout_us (before ++ [outcome]) := by
  obtain ⟨idle, value, middle, split, none⟩ := exists_firstByte some
  rw [split] at arrived ordinary ⊢
  rw [timeLeft_of_firstByte _ none]
  rw [bytesRead_append, bytesRead_cons, List.forall_mem_append, List.forall_mem_append]
    at ordinary
  have reached := inTime idle value middle arrived none
    (ordinary.2.1 value List.mem_cons_self) ordinary.2.2
  suffices waits : idle ≠ [] →
      250 * (idle.countP ReadOutcome.isIdle : Int) < call.timeout_us by
    have := reached waits
    omega
  intro notEmpty
  have isFirst : idle <+: before := by
    have within : idle <+: before ++ [outcome] := split ▸ List.prefix_append idle _
    refine (List.prefix_concat_iff.mp within).resolve_left ?_
    rintro rfl
    simp at split
  have time := keeps.inTime idle isFirst notEmpty
  rw [timeLeft, sinceFirstByte, if_pos none] at time
  omega

/-- A call in time returns the next line, or nothing. -/
theorem line_of_readLineTurn
    (inTime : LineInTime reader call)
    {lines : List (StreamLine bufferLength)}
    (delivers : Delivers lines reader.outcomes)
    {rest : List ReadOutcome}
    (split : reader.outcomes = before ++ outcome :: rest)
    (keeps : KeepsReading bufferLength call.timeout_us call.stopOnDisconnect before)
    {read : ReadResult}
    (returned : reader.socket.readLineTurn bufferLength call.timeout_us
      call.stopOnDisconnect
      (reader.socket.lineState bufferLength call.timeout_us before) outcome = .inl read) :
    (∃ line later, lines = line :: later ∧ Delivers later rest ∧
        read.returns = true ∧ read.numRead = line.text.length ∧
        line.text <+: read.rcvBuffer) ∨
      Delivers lines rest ∧ read.numRead = 0 := by
  have positive : 0 < bufferLength := Nat.lt_of_le_of_lt (Nat.zero_le _) keeps.room
  have text := (LinuxSocket.result_of_readLineTurn keeps returned).1
  have whole : before ++ outcome :: rest = (before ++ [outcome]) ++ rest :=
    List.append_cons before outcome rest
  rw [split] at delivers
  have bytes := delivers.bytes
  rcases LinuxSocket.readLineTurn_eq_inl_iff.mp returned with
    ⟨answer, numRead, last, ends, rfl⟩ | ⟨next, turns, expired, rfl⟩
  · cases ends with
    | failed => exact absurd (by simp) delivers.working
    | closed stops => exact absurd (by simp) delivers.connected
    | endOfLine value ending =>
        have isEnd : isTerminator value = true := decide_eq_true ending
        rw [bytesRead_append, bytesRead_cons] at bytes
        obtain ⟨line, later, rfl, same, further⟩ :=
          exists_line_of_isPrefix keeps.ordinary isEnd bytes
        rw [whole] at delivers
        refine .inl ⟨line, later, rfl, delivers.of_append further, rfl, ?_, ?_⟩
        · rw [same]
          rfl
        · rw [text, LinuxSocket.textRead_append,
            LinuxSocket.textRead_eq_bytesRead keeps.ordinary, same, List.append_assoc]
          exact List.prefix_append _ _
    | full value ordinary full =>
        rw [whole, bytesRead_append] at bytes
        have short := length_lt_of_isPrefix positive (keeps.ordinary_concat ?_)
          ((List.prefix_append _ _).trans bytes)
        · rw [bytesRead_append, List.length_append] at short
          exact absurd full (Nat.not_le.mpr short)
        · rintro other same
          cases same
          exact LinuxSocket.isTerminator_eq_false_iff.mpr ordinary
  · obtain ⟨⟨goes, -, -⟩, rfl⟩ := (LinuxSocket.turn_lineState_iff keeps.room).mp turns
    have ordinary := keeps.ordinary_concat fun value same => (goes value same).1
    have nothing : bytesRead (before ++ [outcome]) = [] := by
      by_contra some
      have arrived : before ++ [outcome] <+: reader.outcomes := by
        rw [split, whole]
        exact List.prefix_append _ rest
      have time := timeLeft_of_lineInTime inTime keeps arrived ordinary some
      exact absurd expired (Int.not_le.mpr time)
    rw [whole] at delivers bytes
    rw [bytesRead_append, nothing, List.nil_append] at bytes
    refine .inr ⟨delivers.of_append bytes, ?_⟩
    exact congrArg (fun read => (read.length : Int)) nothing

end Call

/-! ## Runs of the reader -/

/-- The lines returned so far and those still to come are the lines of the peer. -/
def Follows {bufferLength : Nat} (lines : List (StreamLine bufferLength))
    (reader : LineReader) : Prop :=
  ∃ done later, lines = done ++ later ∧ Delivers later reader.outcomes ∧
    returnedLines reader.reads = nonEmptyLines done

theorem returnedLines_concat (reads : List ReadResult) (read : ReadResult) :
    returnedLines (reads ++ [read]) = returnedLines reads ++ returnedLines [read] := by
  rw [returnedLines, List.filter_append, List.map_append]
  rfl

theorem nonEmptyLines_append
    {bufferLength : Nat}
    (first second : List (StreamLine bufferLength)) :
    nonEmptyLines (first ++ second) = nonEmptyLines first ++ nonEmptyLines second := by
  rw [nonEmptyLines, List.map_append, List.filter_append]
  rfl

/-- A call that returns a line counts for it, if it is not empty. -/
theorem returnedLines_singleton
    {bufferLength : Nat}
    {line : StreamLine bufferLength}
    {read : ReadResult}
    (returns : read.returns = true)
    (count : read.numRead = line.text.length)
    (begins : line.text <+: read.rcvBuffer) :
    returnedLines [read] = nonEmptyLines [line] := by
  have text : read.rcvBuffer.take read.numRead.toNat = line.text := by
    rw [count, Int.toNat_natCast]
    exact (List.prefix_iff_eq_take.mp begins).symm
  have counted : (read.returns && decide (0 < read.numRead)) = !line.text.isEmpty := by
    rw [returns, count]
    cases line.text <;> simp
  rw [returnedLines, nonEmptyLines, List.map_singleton, List.filter_singleton,
    List.filter_singleton, counted]
  cases line.text.isEmpty with
  | true => rfl
  | false => exact congrArg (fun text => [text]) text

/-- A call in time goes on with the lines of the peer. -/
theorem follows_step
    {bufferLength : Nat}
    (positive : 0 < bufferLength)
    {lines : List (StreamLine bufferLength)}
    {reader next : LineReader}
    {call : LineCall}
    (follows : Follows lines reader)
    (inTime : LineInTime reader call)
    (stepped : reader.step bufferLength call = some next) :
    Follows lines next := by
  obtain ⟨done, later, rfl, delivers, same⟩ := follows
  obtain ⟨⟨read, rest⟩, called, rfl⟩ := Option.map_eq_some_iff.mp stepped
  obtain ⟨before, outcome, split, keeps, returned⟩ :=
    (LinuxSocket.readLineCall_eq_some_iff positive).mp called
  rcases line_of_readLineTurn inTime delivers split keeps returned with
    ⟨line, further, rfl, delivers, returns, count, begins⟩ | ⟨delivers, nothing⟩
  · refine ⟨done ++ [line], further, List.append_cons _ _ _, delivers, ?_⟩
    rw [returnedLines_concat, nonEmptyLines_append, same,
      returnedLines_singleton returns count begins]
  · refine ⟨done, later, rfl, delivers, ?_⟩
    rw [returnedLines_concat, ← same]
    simp [returnedLines, nothing]

/-- In a run whose calls are in time the lines returned are the first of the peer's
lines that are not empty. -/
theorem returnedLines_isPrefix
    {bufferLength : Nat}
    (positive : 0 < bufferLength)
    {lines : List (StreamLine bufferLength)}
    {outcomes : List ReadOutcome}
    (delivers : Delivers lines outcomes)
    (socket : LinuxSocket)
    {calls : List LineCall}
    (inTime : Guarded (LineReader.step bufferLength) LineInTime ⟨socket, outcomes, []⟩
      calls)
    {last : LineReader}
    (performed : run (LineReader.step bufferLength) ⟨socket, outcomes, []⟩ calls =
      some last) :
    returnedLines last.reads <+: nonEmptyLines lines := by
  have start : Follows lines ⟨socket, outcomes, []⟩ := ⟨[], lines, rfl, delivers, rfl⟩
  obtain ⟨done, later, rfl, -, same⟩ := run_preserves_of_guarded
    (fun reader call next follows allowed stepped =>
      follows_step positive follows allowed stepped) start inTime performed
  rw [same, nonEmptyLines_append]
  exact List.prefix_append _ _

/-- All answers come within the time of a call. -/
theorem lineInTime_of_countP
    {reader : LineReader}
    {call : LineCall}
    (short : 250 * (reader.outcomes.countP ReadOutcome.isIdle : Int) < call.timeout_us) :
    LineInTime reader call := by
  intro idle value middle begins _ _ _ _
  have fewer : middle.countP ReadOutcome.isIdle ≤
      reader.outcomes.countP ReadOutcome.isIdle := by
    apply (List.Sublist.countP_le ·)
    exact (List.sublist_append_of_sublist_right
      (List.sublist_cons_self _ middle)).trans begins.sublist
  omega

/-- The line "ab". -/
def abLine : StreamLine 4 where
  text := [0x61, 0x62]
  ending := newline
  ordinary := List.forall_mem_cons.mpr ⟨by decide, List.forall_mem_singleton.mpr (by decide)⟩
  ends := by decide
  short := by decide

/-- A line that arrives with a pause, within the time of the call. -/
theorem returnedLines_isPrefix_ab :
    ∃ last, run (LineReader.step 4)
        ⟨.new, [.wouldBlock, .byte 0x61, .wouldBlock, .byte 0x62, .byte newline], []⟩
        [⟨1000, true⟩] = some last ∧
      returnedLines last.reads <+: nonEmptyLines [abLine] := by
  have delivers : Delivers [abLine]
      [.wouldBlock, .byte 0x61, .wouldBlock, .byte 0x62, .byte newline] :=
    ⟨by decide, by decide, by decide⟩
  have inTime : Guarded (LineReader.step 4) LineInTime
      ⟨.new, [.wouldBlock, .byte 0x61, .wouldBlock, .byte 0x62, .byte newline], []⟩
      [⟨1000, true⟩] :=
    ⟨lineInTime_of_countP (by decide), fun _ _ => trivial⟩
  exact ⟨_, rfl, returnedLines_isPrefix (by decide) delivers .new inTime rfl⟩

/-- A line whose second byte arrives after the time of the call: the next call returns
the rest of it. -/
theorem not_returnedLines_isPrefix :
    Delivers [abLine] [.byte 0x61, .wouldBlock, .byte 0x62, .byte newline] ∧
      ∃ last, run (LineReader.step 4)
          ⟨.new, [.byte 0x61, .wouldBlock, .byte 0x62, .byte newline], []⟩
          [⟨250, true⟩, ⟨250, true⟩] = some last ∧
        ¬ returnedLines last.reads <+: nonEmptyLines [abLine] :=
  ⟨⟨by decide, by decide, by decide⟩, _, rfl, by decide⟩

end ProtobufSandbox
