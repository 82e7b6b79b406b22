import ProtobufSandbox.Socket.ReadLine
import ProtobufSandbox.Transport.Segmentation

/-!
# The two receive modes

In line mode a poll reads one line, and `readLine` takes its newline away. What is
appended to `m_CmdBuffer` has none, so that no poll in line mode ever finds a command.
In block mode the newlines stay, and every line of a stream is a command.
-/

namespace ProtobufSandbox

open Separator

/-- A line of a command stream: not empty, without zero bytes and ends of lines, and
shorter than the read buffer. -/
structure CommandLine where
  text : Bytes
  nonempty : text ≠ []
  ordinary : ∀ value ∈ text, isTerminator value = false
  nonzero : (0 : UInt8) ∉ text
  short : text.length < readBlockSize

namespace CommandLine

/-- The line has no newline in it. -/
theorem newline_not_mem (line : CommandLine) : newline ∉ line.text := by
  intro present
  have ends : isTerminator newline = true := by decide
  cases ends.symm.trans (line.ordinary newline present)

/-- The bytes of the lines, each with a newline behind it. -/
def stream (lines : List CommandLine) : Bytes :=
  lines.flatMap fun line => line.text ++ [newline]

theorem stream_cons (line : CommandLine) (lines : List CommandLine) :
    stream (line :: lines) = line.text ++ newline :: stream lines := by
  rw [stream, List.flatMap_cons, List.append_assoc]
  rfl

/-- The terminated segments of the stream are its lines. -/
theorem terminated_stream (lines : List CommandLine) :
    terminated newline (stream lines) = lines.map text := by
  induction lines with
  | nil => rfl
  | cons line lines inductionHypothesis =>
      rw [stream_cons, (of_append_cons line.newline_not_mem _).1, inductionHypothesis,
        List.map_cons]

theorem zero_not_mem_stream (lines : List CommandLine) : (0 : UInt8) ∉ stream lines := by
  induction lines with
  | nil => exact List.not_mem_nil
  | cons line lines inductionHypothesis =>
      rw [stream_cons, List.mem_append, List.mem_cons]
      rintro (isText | isNewline | later)
      · exact line.nonzero isText
      · exact absurd isNewline (by decide)
      · exact inductionHypothesis later

end CommandLine

/-! ## Runs in both modes -/

/-- The polls in line mode read the stream without timeouts: each takes all its answers,
the last of which ends a line. -/
structure ReadsByLine (lines : List CommandLine) (outcomes : List RxOutcome) : Prop where
  bytes : outcomes.flatMap (fun outcome => bytesRead outcome.reads) = CommandLine.stream lines
  inTime : ∀ outcome ∈ outcomes, ∃ before value,
    outcome.reads = before ++ [.byte value] ∧
      KeepsReading readBlockSize 1000000 true before ∧ isTerminator value = true

/-- The commands that the polls of a new transport deliver in a mode. -/
def commandsIn
    (receiveMode : SocketReadMode)
    (socket : LinuxSocket)
    (outcomes : List RxOutcome) : Option (List Bytes) :=
  (Reception.receive { SocketTransport.new socket with receiveMode := receiveMode }
    outcomes).map fun reception => reception.delivered.map Invocation.command

/-- However the stream is read line by line and cut into blocks, both modes deliver the
same commands. -/
def ModesAgree (socket : LinuxSocket) (lines : List CommandLine) : Prop :=
  ∀ byLine byBlock, ReadsByLine lines byLine → CutsInto byBlock (CommandLine.stream lines) →
    ∃ commands, commandsIn .modeLine socket byLine = some commands ∧
      commandsIn .modeBlock socket byBlock = some commands

/-! ## Block mode -/

/-- In block mode every line is delivered. -/
theorem commandsIn_modeBlock
    {socket : LinuxSocket}
    {lines : List CommandLine}
    {outcomes : List RxOutcome}
    (connected : socket.connectionState = .connected)
    (valid : socket.clientSock ≠ invalidSocket)
    (cut : CutsInto outcomes (CommandLine.stream lines)) :
    commandsIn .modeBlock socket outcomes = some (lines.map CommandLine.text) := by
  have nonzero : (0 : UInt8) ∉ streamOf outcomes :=
    cut.stream_eq ▸ CommandLine.zero_not_mem_stream lines
  obtain ⟨reception, performed, commands, -⟩ :=
    Reception.receive_frames_stream connected valid cut.remains nonzero
  rw [cut.stream_eq, CommandLine.terminated_stream] at commands
  have performed : Reception.receive
      { SocketTransport.new socket with receiveMode := .modeBlock } outcomes =
        some reception := performed
  rw [commandsIn, performed, Option.map_some, commands]

/-! ## Line mode -/

/-- A call that comes to the end of a line succeeds, keeps the connection, and leaves no
newline in the buffer. -/
theorem LinuxSocket.exists_readLine_endOfLine
    (socket : LinuxSocket)
    {before : List ReadOutcome}
    {value : UInt8}
    (keeps : KeepsReading readBlockSize 1000000 true before)
    (ends : isTerminator value = true) :
    ∃ read,
      socket.readLine readBlockSize 1000000 true (before ++ [.byte value]) = some read ∧
        read.returns = true ∧ read.socket = socket ∧ newline ∉ read.rcvBuffer := by
  have ending : value = newline ∨ value = carriageReturn := of_decide_eq_true ends
  have last := @LastTurn.endOfLine readBlockSize 1000000 true
    (socket.lineState readBlockSize 1000000 before) value ending
  have turned := (@readLineTurn_eq_inl_iff socket _ _ _ _ _ _).mpr
    (.inl ⟨_, _, _, last, rfl⟩)
  have called := (@readLineCall_eq_some_iff socket _ _ _ (by decide) _ [] _).mpr
    ⟨before, .byte value, rfl, keeps, turned⟩
  obtain ⟨buffer, -, -⟩ := result_of_readLineTurn keeps turned
  refine ⟨_, by rw [readLine_eq, called, Option.map_some], rfl, ?_, ?_⟩
  · have connected : ReadOutcome.closed ∉ before := keeps.connected rfl
    simp [finish, ReadLineState.store, lineState, connected]
  · rw [buffer, List.mem_append]
    rintro (isText | isZero)
    · have notEnd : isTerminator newline = false := by
        simpa using (List.mem_filter.mp isText).2
      cases (by decide : isTerminator newline = true).symm.trans notEnd
    · exact absurd (List.eq_of_mem_replicate isZero) (by decide)

namespace SocketTransport

/-- A transport in line mode that has no newline to look for. -/
structure ByLine (transport : SocketTransport) : Prop where
  lineMode : transport.receiveMode = .modeLine
  connected : transport.socket.connectionState = .connected
  timeout : transport.receiveTimeout_us = 1000000
  stops : transport.stopOnDisconnect = true
  incomplete : newline ∉ transport.cmdBuffer

/-- A read that brings no newline delivers nothing. -/
theorem deliver_nothing
    {transport : SocketTransport}
    (incomplete : newline ∉ transport.cmdBuffer)
    (absent : newline ∉ transport.readBuffer) :
    transport.deliver =
      ({ transport with
          readBuffer := List.replicate readBlockSize 0
          cmdBuffer := transport.cmdBuffer ++ cString transport.readBuffer }, []) := by
  have none : newline ∉ transport.cmdBuffer ++ cString transport.readBuffer := by
    rw [List.mem_append]
    rintro (before | appended)
    · exact incomplete before
    · exact absent ((List.takeWhile_sublist _).subset appended)
  rw [deliver, takeCommands_eq _ _ _ (Nat.le_refl _), (of_not_mem none).1,
    (of_not_mem none).2]
  rfl

/-- A poll in line mode that comes to the end of a line delivers nothing. -/
theorem ByLine.updateRx
    {transport : SocketTransport}
    (byLine : transport.ByLine)
    {outcome : RxOutcome}
    {before : List ReadOutcome}
    {value : UInt8}
    (reads : outcome.reads = before ++ [.byte value])
    (keeps : KeepsReading readBlockSize 1000000 true before)
    (ends : isTerminator value = true) :
    ∃ result, transport.updateRx outcome = some result ∧
      result.transport.ByLine ∧ result.invocations = [] := by
  obtain ⟨read, returned, returns, same, absent⟩ :=
    transport.socket.exists_readLine_endOfLine keeps ends
  have updated :
      transport.updateRx outcome = some (transport.afterRead read outcome.reconnect) := by
    unfold SocketTransport.updateRx
    simp only [byLine.connected, byLine.lineMode, byLine.timeout, byLine.stops, reads,
      returned, Option.map_some]
  refine ⟨_, updated, ?_⟩
  rw [SocketTransport.afterRead, if_pos returns, same]
  by_cases some : 0 < read.numRead
  · have nothing := @deliver_nothing
      { transport with readBuffer := read.rcvBuffer } byLine.incomplete absent
    rw [if_pos some]
    dsimp only
    rw [nothing]
    refine ⟨⟨byLine.lineMode, byLine.connected, byLine.timeout, byLine.stops, ?_⟩, rfl⟩
    rw [List.mem_append]
    rintro (isBefore | isAppended)
    · exact byLine.incomplete isBefore
    · exact absent ((List.takeWhile_sublist _).subset isAppended)
  · rw [if_neg some]
    exact ⟨⟨byLine.lineMode, byLine.connected, byLine.timeout, byLine.stops,
      byLine.incomplete⟩, rfl⟩

end SocketTransport

namespace Reception

/-- A reception in line mode that has delivered nothing. -/
structure Quiet (reception : Reception) : Prop where
  byLine : reception.transport.ByLine
  nothing : reception.delivered = []

/-- In line mode nothing is delivered, in a whole run. -/
theorem receive_byLine
    {lines : List CommandLine}
    {transport : SocketTransport}
    (byLine : transport.ByLine)
    {outcomes : List RxOutcome}
    (reads : ReadsByLine lines outcomes) :
    ∃ reception, receive transport outcomes = some reception ∧ reception.Quiet := by
  have start : Quiet { transport := transport, received := [], delivered := [] } :=
    ⟨byLine, rfl⟩
  refine TransitionSystem.exists_run_of_progress (fun reception outcome isPoll quiet => ?_)
    start
  obtain ⟨before, value, reads, keeps, ends⟩ := reads.inTime outcome isPoll
  obtain ⟨result, updated, nextByLine, none⟩ := quiet.byLine.updateRx reads keeps ends
  exact ⟨_, Option.map_eq_some_iff.mpr ⟨result, updated, rfl⟩, nextByLine,
    List.append_eq_nil_iff.mpr ⟨quiet.nothing, none⟩⟩

end Reception

/-- In line mode no command is delivered. -/
theorem commandsIn_modeLine
    {socket : LinuxSocket}
    {lines : List CommandLine}
    {outcomes : List RxOutcome}
    (connected : socket.connectionState = .connected)
    (reads : ReadsByLine lines outcomes) :
    commandsIn .modeLine socket outcomes = some [] := by
  obtain ⟨reception, performed, quiet⟩ := @Reception.receive_byLine lines
    { SocketTransport.new socket with receiveMode := .modeLine }
    ⟨rfl, connected, rfl, rfl, List.not_mem_nil⟩ outcomes reads
  rw [commandsIn, performed, Option.map_some, quiet.nothing, List.map_nil]

/-! ## Polls that read a stream -/

/-- The answers that bring a line at once, and its newline. -/
def lineReads (line : CommandLine) : List ReadOutcome :=
  line.text.map ReadOutcome.byte ++ [.byte newline]

/-- A poll in line mode to which a line has arrived. -/
def lineOutcome (line : CommandLine) : RxOutcome :=
  { polled (-1) .wouldBlock with reads := lineReads line }

theorem bytesRead_map_byte (bytes : Bytes) :
    bytesRead (bytes.map ReadOutcome.byte) = bytes := by
  induction bytes with
  | nil => rfl
  | cons byte bytes inductionHypothesis =>
      rw [List.map_cons, bytesRead_cons, inductionHypothesis]
      rfl

/-- Bytes that end no line and fit keep a call reading. -/
theorem keepsReading_map_byte
    {bytes : Bytes}
    (ordinary : ∀ value ∈ bytes, isTerminator value = false)
    (room : bytes.length < readBlockSize) :
    KeepsReading readBlockSize 1000000 true (bytes.map ReadOutcome.byte) := by
  refine ⟨?_, ?_, by simp, fun _ => by simp, fun first begins _ => ?_⟩
  · rwa [bytesRead_map_byte]
  · rwa [bytesRead_map_byte]
  · have idle : (sinceFirstByte first).countP ReadOutcome.isIdle = 0 := by
      rw [List.countP_eq_zero]
      intro outcome isSince
      have inFirst : outcome ∈ first := by
        unfold sinceFirstByte at isSince
        split at isSince
        · exact isSince
        · exact (List.dropWhile_sublist _).subset isSince
      obtain ⟨value, -, rfl⟩ := List.mem_map.mp (begins.subset inFirst)
      simp [ReadOutcome.isIdle]
    rw [timeLeft, idle]
    decide

/-- A stream can be read line by line. -/
theorem readsByLine_lineOutcome (lines : List CommandLine) :
    ReadsByLine lines (lines.map lineOutcome) := by
  constructor
  · rw [List.flatMap_map, CommandLine.stream]
    congr 1
    funext line
    rw [lineOutcome, lineReads, bytesRead_append, bytesRead_map_byte]
    rfl
  · intro outcome isPoll
    obtain ⟨line, -, rfl⟩ := List.mem_map.mp isPoll
    exact ⟨_, newline, rfl, keepsReading_map_byte line.ordinary line.short, by decide⟩

/-! ## When the modes agree -/

/-- The modes disagree about every stream that has a line. -/
theorem eq_nil_of_modesAgree
    {socket : LinuxSocket}
    (connected : socket.connectionState = .connected)
    (valid : socket.clientSock ≠ invalidSocket)
    {lines : List CommandLine}
    (agree : ModesAgree socket lines) :
    lines = [] := by
  have byLine := readsByLine_lineOutcome lines
  have byBlock := (cutsInto_bytewise (CommandLine.stream lines)).1
  obtain ⟨commands, inLine, inBlock⟩ := agree _ _ byLine byBlock
  cases (commandsIn_modeLine connected byLine).symm.trans inLine
  have none := (commandsIn_modeBlock connected valid byBlock).symm.trans inBlock
  exact List.map_eq_nil_iff.mp (Option.some.inj none)

/-- On a connected socket line mode and block mode deliver the same commands exactly if
the stream has no line. -/
theorem modesAgree_iff
    {socket : LinuxSocket}
    (connected : socket.connectionState = .connected)
    (valid : socket.clientSock ≠ invalidSocket)
    (lines : List CommandLine) :
    ModesAgree socket lines ↔ lines = [] := by
  constructor
  · exact eq_nil_of_modesAgree connected valid
  · rintro rfl byLine byBlock readsByLine cut
    exact ⟨[], commandsIn_modeLine connected readsByLine,
      commandsIn_modeBlock connected valid cut⟩

/-- The line `status`. -/
def statusLine : CommandLine where
  text := ascii ['s', 't', 'a', 't', 'u', 's']
  nonempty := by decide
  ordinary value isText := by
    simpa using List.any_eq_false.mp (by decide) value isText
  nonzero := by decide
  short := by decide

/-- An accepted client that sends one line. -/
theorem modesAgree_iff_status :
    ModesAgree Reception.acceptedSocket [statusLine] ↔ [statusLine] = [] :=
  modesAgree_iff rfl (by decide) [statusLine]

/-- The line is a command in block mode and none in line mode. -/
theorem not_modesAgree_status : ¬ ModesAgree Reception.acceptedSocket [statusLine] :=
  fun agree => List.cons_ne_nil _ _ (eq_nil_of_modesAgree rfl (by decide) agree)

end ProtobufSandbox
