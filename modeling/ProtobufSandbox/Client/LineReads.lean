import ProtobufSandbox.Protocol.ResponseLeg
import ProtobufSandbox.Socket.LineEnds

/-!
# Lines that the client reads

The client makes a string of its whole buffer, however many bytes `readLine` has read.
The string is the line only if the line fills the buffer, or if there is neither a line
nor a success to report.
-/

namespace ProtobufSandbox
namespace LinuxSocket

section Call

variable {socket : LinuxSocket} {bufferLength : Nat} {timeout_us : Int}
variable {stopOnDisconnect : Bool}

/-- A read fails before there is a byte. -/
def FailsAtOnce
    (bufferLength : Nat)
    (timeout_us : Int)
    (stopOnDisconnect : Bool)
    (outcomes : List ReadOutcome) : Prop :=
  ∃ before after, outcomes = before ++ .failed :: after ∧
    KeepsReading bufferLength timeout_us stopOnDisconnect before ∧ bytesRead before = []

/-- A call goes on exactly with answers that keep it reading. -/
theorem readLine_eq_none_iff
    (positive : 0 < bufferLength)
    {outcomes : List ReadOutcome} :
    socket.readLine bufferLength timeout_us stopOnDisconnect outcomes = none ↔
      KeepsReading bufferLength timeout_us stopOnDisconnect outcomes := by
  rw [readLine_eq, Option.map_eq_none_iff, readLineCall, TurnLoop.call_eq_none_iff]
  constructor
  · rintro ⟨last, gone⟩
    exact ((readLineAfter_eq_some_iff positive).mp gone).1
  · intro keeps
    exact ⟨_, (readLineAfter_eq_some_iff positive).mpr ⟨keeps, rfl⟩⟩

/-- A count below the whole is neither the whole when it is zero nor zero when it is
not. -/
theorem ne_ite_of_lt
    {count whole : Nat}
    (within : count < whole) :
    ¬ (count : Int) = if decide (count = 0) = true then (whole : Int) else 0 := by
  by_cases nothing : count = 0
  · rw [decide_eq_true nothing, if_pos rfl]
    omega
  · rw [decide_eq_false nothing, if_neg Bool.false_ne_true]
    omega

/-- A call that returns has as many bytes as a string of the whole buffer, or none,
exactly if it fills the buffer or fails at once. -/
theorem numRead_of_readLineTurn
    {before : List ReadOutcome}
    {outcome : ReadOutcome}
    (keeps : KeepsReading bufferLength timeout_us stopOnDisconnect before)
    {read : ReadResult}
    (returned : socket.readLineTurn bufferLength timeout_us stopOnDisconnect
      (socket.lineState bufferLength timeout_us before) outcome = .inl read) :
    read.numRead = (if read.returns then (bufferLength : Int) else 0) ↔
      (∃ value, outcome = .byte value ∧ isTerminator value = false ∧
        (bytesRead before).length + 1 = bufferLength) ∨
      outcome = .failed ∧ bytesRead before = [] := by
  have room := keeps.room
  rcases readLineTurn_eq_inl_iff.mp returned with
    ⟨answer, numRead, last, ends, rfl⟩ | ⟨next, turns, expired, rfl⟩
  · cases ends with
    | failed => simp [finish, lineState]
    | closed stops => simp [finish]
    | endOfLine value ending =>
        have ends : isTerminator value = true := decide_eq_true ending
        have other : ((bytesRead before).length : Int) ≠ bufferLength := by omega
        simp [finish, lineState, ends, other]
    | full value ordinary full =>
        have goes : isTerminator value = false := isTerminator_eq_false_iff.mpr ordinary
        have fills : (bytesRead before).length + 1 = bufferLength :=
          Nat.le_antisymm room full
        have count : ((bytesRead before).length : Int) + 1 = bufferLength := by omega
        simp [finish, lineState, goes, fills, count]
  · obtain ⟨⟨goes, notFailed, -⟩, rfl⟩ := (turn_lineState_iff room).mp turns
    apply iff_of_false
    · have within := length_bytesRead_concat_lt room fun value same => (goes value same).2
      exact ne_ite_of_lt within
    · rintro (⟨value, rfl, -, full⟩ | ⟨failed, -⟩)
      · exact absurd full (Nat.ne_of_lt (goes value rfl).2)
      · exact notFailed failed

/-- A call returns at one answer only. -/
theorem eq_of_readLineTurn
    (positive : 0 < bufferLength)
    {before others rest after : List ReadOutcome}
    {outcome other : ReadOutcome}
    {read otherRead : ReadResult}
    (keeps : KeepsReading bufferLength timeout_us stopOnDisconnect before)
    (turned : socket.readLineTurn bufferLength timeout_us stopOnDisconnect
      (socket.lineState bufferLength timeout_us before) outcome = .inl read)
    (othersKeep : KeepsReading bufferLength timeout_us stopOnDisconnect others)
    (otherTurned : socket.readLineTurn bufferLength timeout_us stopOnDisconnect
      (socket.lineState bufferLength timeout_us others) other = .inl otherRead)
    (same : before ++ outcome :: rest = others ++ other :: after) :
    before = others ∧ outcome = other := by
  have called :
      socket.readLineCall bufferLength timeout_us stopOnDisconnect
        (before ++ outcome :: rest) = some (read, rest) :=
    (readLineCall_eq_some_iff positive).mpr ⟨before, outcome, rfl, keeps, turned⟩
  have again := (readLineCall_eq_some_iff positive).mpr
    ⟨others, other, same, othersKeep, otherTurned⟩
  cases called.symm.trans again
  rw [List.append_cons, List.append_cons others] at same
  obtain ⟨equal, last⟩ := List.append_inj' (List.append_cancel_right same) rfl
  exact ⟨equal, List.head_eq_of_cons_eq last⟩

end Call

end LinuxSocket

open LinuxSocket

/-- The string that the client gets has exactly the bytes that `readLine` has read. -/
def ShowsLine (socket : LinuxSocket) (outcomes : List ReadOutcome) : Prop :=
  ∀ read, socket.readLine 512 1000000 false outcomes = some read →
    ∃ after, readLineFromSocket socket outcomes =
      some (read.rcvBuffer.take read.numRead.toNat, after)

/-- The string is the whole buffer, or empty. -/
theorem readLineFromSocket_eq
    {socket : LinuxSocket}
    (connected : socket.connectionState = .connected)
    {outcomes : List ReadOutcome}
    {read : ReadResult}
    (returned : socket.readLine 512 1000000 false outcomes = some read) :
    readLineFromSocket socket outcomes =
      some (if read.returns then read.rcvBuffer else [], read.socket) := by
  rw [readLineFromSocket, if_pos connected, returned]
  rfl

/-- A call that reads nothing until the time is over gives a string of zero bytes, and
not the empty string. -/
theorem readLineFromSocket_of_timeout
    {socket : LinuxSocket}
    (connected : socket.connectionState = .connected)
    {outcomes : List ReadOutcome}
    {read : ReadResult}
    (returned : socket.readLine 512 1000000 false outcomes = some read)
    (success : read.returns = true)
    (nothing : read.numRead = 0) :
    readLineFromSocket socket outcomes = some (List.replicate 512 0, read.socket) := by
  obtain ⟨consumed, rest, -, -, buffer, -, -, count⟩ :=
    (readLine_stores socket (by decide) 1000000 false outcomes).2 read returned
  have none : (textRead consumed).length = 0 := by
    have same := count (by rw [nothing]; decide)
    omega
  rw [readLineFromSocket_eq connected returned, if_pos success, buffer,
    List.length_eq_zero_iff.mp none]
  rfl

/-- What the string has to do with the count. -/
theorem take_eq_iff
    {read : ReadResult}
    (whole : read.rcvBuffer.length = 512)
    (within : 0 ≤ read.numRead ∧ read.numRead ≤ 512) :
    (if read.returns then read.rcvBuffer else []) =
        read.rcvBuffer.take read.numRead.toNat ↔
      read.numRead = (if read.returns then ((512 : Nat) : Int) else 0) := by
  cases read.returns with
  | true =>
      rw [if_pos rfl, if_pos rfl, eq_comm, List.take_eq_self_iff]
      omega
  | false =>
      rw [if_neg Bool.false_ne_true, if_neg Bool.false_ne_true, eq_comm,
        List.take_eq_nil_iff]
      have some : read.rcvBuffer ≠ [] := List.ne_nil_of_length_pos (by omega)
      simp only [some, or_false]
      omega

/-- The string of a call that returns has the bytes of the line exactly if the call has
counted them as the client does. -/
theorem showsLine_iff_numRead
    {socket : LinuxSocket}
    (connected : socket.connectionState = .connected)
    {outcomes : List ReadOutcome}
    {read : ReadResult}
    (returned : socket.readLine 512 1000000 false outcomes = some read) :
    ShowsLine socket outcomes ↔
      read.numRead = (if read.returns then ((512 : Nat) : Int) else 0) := by
  obtain ⟨consumed, -, -, -, buffer, whole, stopped, count⟩ :=
    (readLine_stores socket (by decide) 1000000 false outcomes).2 read returned
  have within : 0 ≤ read.numRead ∧ read.numRead ≤ 512 := by
    have counted := count fun minus => Bool.false_ne_true (stopped.mp minus).1
    have fits := congrArg List.length buffer
    rw [whole, List.length_append] at fits
    omega
  rw [← take_eq_iff whole within]
  constructor
  · intro shows
    obtain ⟨after, same⟩ := shows read returned
    rw [readLineFromSocket_eq connected returned] at same
    exact congrArg Prod.fst (Option.some.inj same)
  · intro same other again
    cases returned.symm.trans again
    rw [readLineFromSocket_eq connected returned, same]
    exact ⟨_, rfl⟩

/-- On a connected socket the string has the bytes of the line exactly if the call goes
on, the line fills the buffer, or a read fails before there is a byte. -/
theorem showsLine_iff
    {socket : LinuxSocket}
    (connected : socket.connectionState = .connected)
    (outcomes : List ReadOutcome) :
    ShowsLine socket outcomes ↔
      KeepsReading 512 1000000 false outcomes ∨ FillsBuffer 512 1000000 false outcomes ∨
        FailsAtOnce 512 1000000 false outcomes := by
  have positive : 0 < 512 := by decide
  cases called : socket.readLineCall 512 1000000 false outcomes with
  | none =>
      have goesOn : socket.readLine 512 1000000 false outcomes = none := by
        rw [readLine_eq, called, Option.map_none]
      refine iff_of_true (fun read returned => ?_)
        (.inl ((readLine_eq_none_iff positive).mp goesOn))
      cases goesOn.symm.trans returned
  | some result =>
      obtain ⟨read, rest⟩ := result
      obtain ⟨before, outcome, rfl, keeps, turned⟩ :=
        (readLineCall_eq_some_iff positive).mp called
      have returned :
          socket.readLine 512 1000000 false (before ++ outcome :: rest) = some read := by
        rw [readLine_eq, called, Option.map_some]
      rw [showsLine_iff_numRead connected returned, numRead_of_readLineTurn keeps turned]
      constructor
      · rintro (⟨value, rfl, ordinary, full⟩ | ⟨rfl, nothing⟩)
        · exact .inr (.inl ⟨before, value, rest, rfl, keeps, ordinary, full⟩)
        · exact .inr (.inr ⟨before, rest, rfl, keeps, nothing⟩)
      · rintro (goesOn | ⟨others, value, after, same, othersKeep, ordinary, full⟩ |
          ⟨others, after, same, othersKeep, nothing⟩)
        · cases ((readLine_eq_none_iff positive).mpr goesOn).symm.trans returned
        · obtain ⟨otherRead, otherTurned, -⟩ := readLineTurn_full ordinary full
          obtain ⟨rfl, rfl⟩ :=
            eq_of_readLineTurn positive keeps turned othersKeep otherTurned same
          exact .inl ⟨value, rfl, ordinary, full⟩
        · obtain ⟨rfl, rfl⟩ :=
            eq_of_readLineTurn positive keeps turned othersKeep rfl same
          exact .inr ⟨rfl, nothing⟩

/-- A line of one byte. -/
theorem showsLine_iff_short :
    ShowsLine { LinuxSocket.new with connectionState := .connected }
        [.byte 0x41, .byte newline] ↔
      KeepsReading 512 1000000 false [.byte 0x41, .byte newline] ∨
        FillsBuffer 512 1000000 false [.byte 0x41, .byte newline] ∨
          FailsAtOnce 512 1000000 false [.byte 0x41, .byte newline] :=
  showsLine_iff rfl [.byte 0x41, .byte newline]

/-- The string for a line of one byte has all the bytes of the buffer. -/
theorem not_showsLine_short :
    ¬ ShowsLine { LinuxSocket.new with connectionState := .connected }
      [.byte 0x41, .byte newline] := by
  rw [@showsLine_iff_numRead { LinuxSocket.new with connectionState := .connected } rfl
    [.byte 0x41, .byte newline] _ rfl]
  decide

end ProtobufSandbox
