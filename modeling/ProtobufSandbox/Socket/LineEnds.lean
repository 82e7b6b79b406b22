import Mathlib.Data.Prod.Lex
import ProtobufSandbox.Socket.ReadLine

/-!
# How a call of `readLine` ends

A call ends for every sequence of answers that is not interrupted for ever. It says
that it has read a line also when the buffer is full before the end of the line, so
that it reports a line that does not fit exactly if it does not come to fill the buffer.
-/

namespace ProtobufSandbox
namespace LinuxSocket

variable {socket : LinuxSocket} {bufferLength : Nat} {timeout_us : Int}
variable {stopOnDisconnect : Bool}

/-! ## Termination -/

/-- The room that is left in the buffer, and then the time. -/
def lineRank (bufferLength : Nat) (state : ReadLineState) : ℕ ×ₗ ℕ :=
  toLex (bufferLength - state.numRead, state.timeout_us.toNat)

/-- A turn that goes on takes room or time, unless it is interrupted. -/
theorem lineRank_of_readLineTurn
    {state next : ReadLineState}
    {outcome : ReadOutcome}
    (turned : socket.readLineTurn bufferLength timeout_us stopOnDisconnect state outcome =
      .inr next) :
    lineRank bufferLength next < lineRank bufferLength state ∨
      outcome = .interrupted ∧
        lineRank bufferLength next = lineRank bufferLength state := by
  obtain ⟨turns, time⟩ := readLineTurn_eq_inr_iff.mp turned
  simp only [lineRank, Prod.Lex.toLex_lt_toLex]
  cases turns with
  | interrupted => exact .inr ⟨rfl, rfl⟩
  | wouldBlock =>
      dsimp only at time
      refine .inl (.inr ⟨rfl, ?_⟩)
      dsimp only
      omega
  | closed =>
      dsimp only at time
      refine .inl (.inr ⟨rfl, ?_⟩)
      dsimp only
      omega
  | byte value ordinary room =>
      refine .inl (.inl ?_)
      dsimp only
      omega

/-- `readLine` returns after finitely many turns, if `read` is not interrupted for
ever. -/
theorem readLine_terminates
    (socket : LinuxSocket)
    (bufferLength : Nat)
    (timeout_us : Int)
    (stopOnDisconnect : Bool)
    {outcomes : ℕ → ReadOutcome}
    (often : ∀ count, ∃ later, count ≤ later ∧ outcomes later ≠ .interrupted) :
    ∃ count,
      (socket.readLine bufferLength timeout_us stopOnDisconnect
        (TurnLoop.firstInputs outcomes count)).isSome := by
  simp only [readLine_eq, Option.isSome_map]
  exact @TurnLoop.exists_call_of_rank _ _ _
    (socket.readLineTurn bufferLength timeout_us stopOnDisconnect) (ℕ ×ₗ ℕ) _ _
    (lineRank bufferLength) (· = .interrupted)
    (fun state outcome next turned => lineRank_of_readLineTurn turned) outcomes often
    (socket.lineStart bufferLength timeout_us)

/-- A peer that sends a byte after each interruption. -/
theorem readLine_terminates_interrupted :
    ∃ count,
      (LinuxSocket.new.readLine 16 1000 false
        (TurnLoop.firstInputs
          (fun index => if index % 2 = 0 then .interrupted else .byte 0x41)
          count)).isSome :=
  readLine_terminates LinuxSocket.new 16 1000 false fun count =>
    ⟨2 * count + 1, by omega, by simp [Nat.add_mod]⟩

/-! ## Lines that do not fit -/

/-- The answers bring as many bytes as the buffer holds, none of which ends the line,
before anything else ends the call. -/
def FillsBuffer
    (bufferLength : Nat)
    (timeout_us : Int)
    (stopOnDisconnect : Bool)
    (outcomes : List ReadOutcome) : Prop :=
  ∃ before value after, outcomes = before ++ .byte value :: after ∧
    KeepsReading bufferLength timeout_us stopOnDisconnect before ∧
    isTerminator value = false ∧ (bytesRead before).length + 1 = bufferLength

/-- A call of `readLine` returns true only if it has come to the end of a line, or the
time is over with nothing read, and it returns false if the buffer is full before the
end of the line. -/
def ReportsLongLines
    (socket : LinuxSocket)
    (bufferLength : Nat)
    (timeout_us : Int)
    (stopOnDisconnect : Bool)
    (outcomes : List ReadOutcome) : Prop :=
  ∀ read,
    socket.readLine bufferLength timeout_us stopOnDisconnect outcomes = some read →
      ∃ consumed rest, outcomes = consumed ++ rest ∧
        socket.readLineCall bufferLength timeout_us stopOnDisconnect outcomes =
          some (read, rest) ∧
        (read.returns = true →
          (∃ value ∈ bytesRead consumed, isTerminator value = true) ∨
            timeLeft timeout_us consumed ≤ 0 ∧ bytesRead consumed = []) ∧
        ((∀ value ∈ bytesRead consumed, isTerminator value = false) →
          bufferLength ≤ (bytesRead consumed).length → read.returns = false)

/-- A call that fills the buffer returns true there. -/
theorem readLineTurn_full
    {before : List ReadOutcome}
    {value : UInt8}
    (ordinary : isTerminator value = false)
    (full : (bytesRead before).length + 1 = bufferLength) :
    ∃ read,
      socket.readLineTurn bufferLength timeout_us stopOnDisconnect
          (socket.lineState bufferLength timeout_us before) (.byte value) = .inl read ∧
        read.returns = true := by
  have last := @LastTurn.full bufferLength timeout_us stopOnDisconnect
    (socket.lineState bufferLength timeout_us before) value
    (isTerminator_eq_false_iff.mp ordinary) (Nat.le_of_eq full.symm)
  exact ⟨_, readLineTurn_eq_inl_iff.mpr (.inl ⟨_, _, _, last, rfl⟩), rfl⟩

/-- A call that does not fill the buffer returns true only at the end of a line, or
when the time is over with nothing read. -/
theorem returns_of_readLineTurn
    {before : List ReadOutcome}
    {outcome : ReadOutcome}
    (keeps : KeepsReading bufferLength timeout_us stopOnDisconnect before)
    {read : ReadResult}
    (returned : socket.readLineTurn bufferLength timeout_us stopOnDisconnect
      (socket.lineState bufferLength timeout_us before) outcome = .inl read)
    (returns : read.returns = true) :
    (∃ value, outcome = .byte value ∧ isTerminator value = true) ∨
      (timeLeft timeout_us (before ++ [outcome]) ≤ 0 ∧
        bytesRead (before ++ [outcome]) = []) ∨
      ∃ value, outcome = .byte value ∧ isTerminator value = false ∧
        (bytesRead before).length + 1 = bufferLength := by
  have room := keeps.room
  rcases readLineTurn_eq_inl_iff.mp returned with
    ⟨answer, numRead, last, ends, rfl⟩ | ⟨next, turns, expired, rfl⟩
  · cases ends with
    | failed => cases returns
    | closed => cases returns
    | endOfLine value ending => exact .inl ⟨value, rfl, decide_eq_true ending⟩
    | full value ordinary full =>
        refine .inr (.inr ⟨value, rfl, isTerminator_eq_false_iff.mpr ordinary, ?_⟩)
        exact Nat.le_antisymm room full
  · obtain ⟨-, rfl⟩ := (turn_lineState_iff room).mp turns
    have nothing : (bytesRead (before ++ [outcome])).length = 0 :=
      of_decide_eq_true returns
    exact .inr (.inl ⟨expired, List.length_eq_zero_iff.mp nothing⟩)

/-- `readLine` reports a line that does not fit exactly if it does not fill the
buffer. -/
theorem reportsLongLines_iff
    (socket : LinuxSocket)
    {bufferLength : Nat}
    (positive : 0 < bufferLength)
    (timeout_us : Int)
    (stopOnDisconnect : Bool)
    (outcomes : List ReadOutcome) :
    socket.ReportsLongLines bufferLength timeout_us stopOnDisconnect outcomes ↔
      ¬ FillsBuffer bufferLength timeout_us stopOnDisconnect outcomes := by
  constructor
  · rintro reports ⟨before, value, after, rfl, keeps, ordinary, full⟩
    obtain ⟨read, turned, returns⟩ := @readLineTurn_full socket bufferLength timeout_us
      stopOnDisconnect before value ordinary full
    have called := (@readLineCall_eq_some_iff socket bufferLength timeout_us
      stopOnDisconnect positive (before ++ .byte value :: after) after read).mpr
      ⟨before, .byte value, rfl, keeps, turned⟩
    obtain ⟨consumed, rest, split, again, -, notFull⟩ :=
      reports read (by rw [readLine_eq, called, Option.map_some])
    cases called.symm.trans again
    obtain rfl : before ++ [.byte value] = consumed :=
      List.append_cancel_right ((List.append_cons before _ _).symm.trans split)
    rw [notFull] at returns
    · cases returns
    · rw [bytesRead_append, List.forall_mem_append]
      exact ⟨keeps.ordinary, List.forall_mem_singleton.mpr ordinary⟩
    · rw [bytesRead_append, List.length_append]
      exact Nat.le_of_eq full.symm
  · intro fits read returned
    rw [readLine_eq, Option.map_eq_some_iff] at returned
    obtain ⟨⟨read, rest⟩, called, rfl⟩ := returned
    obtain ⟨before, outcome, rfl, keeps, turned⟩ :=
      (readLineCall_eq_some_iff positive).mp called
    refine ⟨before ++ [outcome], rest, List.append_cons _ _ _, called, fun returns => ?_,
      fun ordinary full => ?_⟩
    · rcases returns_of_readLineTurn keeps turned returns with
        ⟨value, rfl, ending⟩ | expired | ⟨value, rfl, ordinary, full⟩
      · refine .inl ⟨value, ?_, ending⟩
        rw [bytesRead_append]
        exact List.mem_append_right _ List.mem_cons_self
      · exact .inr expired
      · exact absurd ⟨before, value, rest, rfl, keeps, ordinary, full⟩ fits
    · rw [← Bool.not_eq_true]
      intro returns
      rcases returns_of_readLineTurn keeps turned returns with
        ⟨value, rfl, ending⟩ | ⟨-, nothing⟩ | ⟨value, rfl, short, last⟩
      · rw [bytesRead_append, List.forall_mem_append] at ordinary
        cases ending.symm.trans (ordinary.2 value List.mem_cons_self)
      · rw [nothing, List.length_nil] at full
        omega
      · exact fits ⟨before, value, rest, rfl, keeps, short, last⟩

/-- A line of one byte in a buffer of two. -/
theorem reportsLongLines_short :
    LinuxSocket.new.ReportsLongLines 2 1000 false [.byte 0x41, .byte newline] ↔
      ¬ FillsBuffer 2 1000 false [.byte 0x41, .byte newline] :=
  reportsLongLines_iff LinuxSocket.new (by decide) 1000 false
    [.byte 0x41, .byte newline]

/-- A line of two bytes in a buffer of two. -/
theorem not_reportsLongLines_full :
    ¬ LinuxSocket.new.ReportsLongLines 2 1000 false
      [.byte 0x41, .byte 0x42, .byte newline] := by
  intro reports
  obtain ⟨consumed, rest, split, called, notFull⟩ := reports _ rfl
  cases called
  have whole : [.byte 0x41, .byte 0x42] ++ [.byte newline] =
      consumed ++ [.byte newline] := split
  obtain rfl := List.append_cancel_right whole
  have ordinary : ∀ value ∈ bytesRead [.byte 0x41, .byte 0x42], isTerminator value = false :=
    List.forall_mem_cons.mpr ⟨by decide, List.forall_mem_singleton.mpr (by decide)⟩
  cases notFull.2 ordinary (by decide)

end LinuxSocket
end ProtobufSandbox
