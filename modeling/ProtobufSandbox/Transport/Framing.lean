import ProtobufSandbox.Foundation.TransitionSystem
import ProtobufSandbox.Transport.SocketTransport

/-!
# The framing of the byte stream

Whatever pieces `recv` cuts a stream into, the commands handed to the callback
are the newline-terminated segments of the text received, and `m_CmdBuffer` is
its residue. The invariant ties the read buffer, the residue and the reply
counter together; one poll preserves it, so every run does.
-/

namespace ProtobufSandbox

open Separator

/-! ## Specification of the delivery -/

/-- Number commands with consecutive reply ids. -/
def numbered (first : Nat) (commands : List Bytes) : List Invocation :=
  (commands.zipIdx first).map fun entry => ⟨entry.2, entry.1⟩

@[simp] theorem numbered_nil (first : Nat) : numbered first [] = [] := rfl

theorem numbered_cons
    (first : Nat)
    (command : Bytes)
    (commands : List Bytes) :
    numbered first (command :: commands) =
      ⟨first, command⟩ :: numbered (first + 1) commands := rfl

theorem numbered_append
    (first : Nat)
    (left right : List Bytes) :
    numbered first (left ++ right) =
      numbered first left ++ numbered (first + left.length) right := by
  simp [numbered, List.zipIdx_append]

/-- Forgetting the reply ids gives the commands back. -/
@[simp] theorem map_command_numbered
    (first : Nat)
    (commands : List Bytes) :
    (numbered first commands).map Invocation.command = commands := by
  induction commands generalizing first with
  | nil => rfl
  | cons command commands inductionHypothesis =>
      simp [numbered_cons, inductionHypothesis]

namespace SocketTransport

/-- The `find`/`substr` loop computes the terminated segments and the residue. -/
theorem takeCommands_eq
    (turns : Nat)
    (cmdStrs : List Bytes)
    (cmdBuffer : Bytes)
    (enough : cmdBuffer.length ≤ turns) :
    takeCommands turns cmdStrs cmdBuffer =
      (cmdStrs ++ terminated newline cmdBuffer, residue newline cmdBuffer) := by
  induction cmdBuffer using Separator.induction newline
    generalizing turns cmdStrs with
  | open_segment cmdBuffer absent =>
      have notFound : cmdBuffer.findIdx? (· = newline) = none := by
        rw [List.findIdx?_eq_none_iff]
        intro byte present
        exact decide_eq_false fun equal => absent (equal ▸ present)
      cases turns <;>
        simp [takeCommands, notFound, of_not_mem absent]
  | ended_segment segment rest absent inductionHypothesis =>
      have notFound : segment.findIdx? (· = newline) = none := by
        rw [List.findIdx?_eq_none_iff]
        intro byte present
        exact decide_eq_false fun equal => absent (equal ▸ present)
      have found :
          (segment ++ newline :: rest).findIdx? (· = newline) =
            some segment.length := by
        rw [List.findIdx?_append, notFound]
        simp [List.findIdx?_cons]
      cases turns with
      | zero => simp at enough
      | succ turns =>
          have shorter : rest.length ≤ turns := by
            simp only [List.length_append, List.length_cons] at enough
            omega
          simp only [takeCommands, found, of_append_cons absent rest]
          rw [show segment.length + 1 = (segment ++ [newline]).length by simp,
            show segment ++ newline :: rest = (segment ++ [newline]) ++ rest by
              simp,
            List.drop_left, List.append_assoc segment, List.take_left,
            inductionHypothesis turns _ shorter]
          simp

/-- A registered callback gets every command under the next reply id. -/
theorem invokeAll_eq
    (transport : SocketTransport)
    (registered : transport.callbackRegistered = true)
    (cmdStrs : List Bytes) :
    transport.invokeAll cmdStrs =
      ({ transport with invokeCnt := transport.invokeCnt + cmdStrs.length },
        numbered (transport.invokeCnt + 1) cmdStrs) := by
  induction cmdStrs generalizing transport with
  | nil => rfl
  | cons cmdStr cmdStrs inductionHypothesis =>
      rw [invokeAll, if_pos registered]
      simp only [inductionHypothesis
        { transport with invokeCnt := transport.invokeCnt + 1 } registered]
      simp only [numbered_cons, List.length_cons, Prod.mk.injEq, and_true]
      congr 1
      omega

/-- A delivery hands over what the appended text completes. -/
theorem deliver_eq
    (transport : SocketTransport)
    (registered : transport.callbackRegistered = true) :
    transport.deliver =
      ({ transport with
          readBuffer := List.replicate readBlockSize 0
          cmdBuffer :=
            residue newline
              (transport.cmdBuffer ++ cString transport.readBuffer)
          invokeCnt :=
            transport.invokeCnt +
              (terminated newline
                (transport.cmdBuffer ++ cString transport.readBuffer)).length },
        numbered (transport.invokeCnt + 1)
          (terminated newline
            (transport.cmdBuffer ++ cString transport.readBuffer))) := by
  rw [deliver, takeCommands_eq _ _ _ (Nat.le_refl _), List.nil_append]
  exact invokeAll_eq
    { transport with
      readBuffer := List.replicate readBlockSize 0
      cmdBuffer :=
        residue newline (transport.cmdBuffer ++ cString transport.readBuffer) }
    registered _

/-! ## One poll in block mode -/

/-- The state of the framer between two polls in block mode: the read buffer is
all zero and no complete command is waiting. -/
structure Framer (transport : SocketTransport) : Prop where
  blockMode : transport.receiveMode = .modeBlock
  registered : transport.callbackRegistered = true
  cleared : transport.readBuffer = List.replicate readBlockSize 0
  incomplete : newline ∉ transport.cmdBuffer

/-- A constructed transport is ready for its first poll. -/
theorem framer_new (socket : LinuxSocket) : (new socket).Framer where
  blockMode := rfl
  registered := rfl
  cleared := rfl
  incomplete := List.not_mem_nil

end SocketTransport

/-- The bytes an answer of `recv` delivers. -/
def RecvOutcome.bytes : RecvOutcome limit → Bytes
  | .data chunk => chunk.bytes
  | .closed | .interrupted | .wouldBlock | .failed => []

namespace SocketTransport

/-- The text one poll in block mode adds to the stream: what `recv` delivers to
a connected socket, read as a C string. -/
def heard (transport : SocketTransport) (outcome : RxOutcome) : Bytes :=
  if transport.socket.connectionState = .connected ∧
      transport.socket.clientSock ≠ invalidSocket then
    cString outcome.recv.bytes
  else []

/-- What a poll does to the framer: the residue of the text grows by what the
poll heard, and the commands that completes are delivered. -/
structure Advances
    (transport : SocketTransport)
    (text : Bytes)
    (result : RxResult) : Prop where
  framer : result.transport.Framer
  cmdBuffer :
    result.transport.cmdBuffer = residue newline (transport.cmdBuffer ++ text)
  invokeCnt :
    result.transport.invokeCnt =
      transport.invokeCnt +
        (terminated newline (transport.cmdBuffer ++ text)).length
  invocations :
    result.invocations =
      numbered (transport.invokeCnt + 1)
        (terminated newline (transport.cmdBuffer ++ text))

/-- A poll that leaves the framer alone adds no text. -/
theorem Framer.advances_nil
    {transport : SocketTransport}
    (framer : transport.Framer)
    (returns : Bool)
    (socket : LinuxSocket)
    (calls : List SysCall) :
    transport.Advances []
      { returns := returns
        transport := { transport with socket := socket }
        invocations := []
        calls := calls } := by
  have nothing := of_not_mem framer.incomplete
  refine ⟨⟨framer.blockMode, framer.registered, framer.cleared,
    framer.incomplete⟩, ?_, ?_, ?_⟩ <;>
      simp [nothing]

/-- A read that delivered a chunk adds the chunk's C string. -/
theorem Framer.advances_chunk
    {transport : SocketTransport}
    (framer : transport.Framer)
    (chunk : Chunk (readBlockSize - 1))
    (reconnect : ReconnectOutcome) :
    transport.Advances (cString chunk.bytes)
      (transport.afterRead
        { returns := true
          numRead := chunk.bytes.length
          rcvBuffer := overwrite transport.readBuffer chunk.bytes
          socket := transport.socket }
        reconnect) := by
  have positive : (0 : Int) < chunk.bytes.length := by
    have := List.length_pos_iff.mpr chunk.nonempty
    omega
  have delivered :=
    deliver_eq
      { transport with
        readBuffer := overwrite transport.readBuffer chunk.bytes }
      framer.registered
  simp only [framer.cleared, cString_overwrite_zeros] at delivered
  simp only [afterRead, if_pos positive, if_true, framer.cleared, delivered]
  exact ⟨⟨framer.blockMode, framer.registered, rfl, not_mem_residue _ _⟩,
    rfl, rfl, rfl⟩

/-- Every poll in block mode has a result, and advances the framer by the text
it heard. -/
theorem Framer.updateRx
    {transport : SocketTransport}
    (framer : transport.Framer)
    (outcome : RxOutcome) :
    ∃ result, transport.updateRx outcome = some result ∧
      transport.Advances (transport.heard outcome) result := by
  unfold SocketTransport.updateRx heard
  cases state : transport.socket.connectionState with
  | connected =>
      simp only [framer.blockMode, Option.some.injEq, exists_eq_left', true_and]
      unfold LinuxSocket.readBlock
      by_cases valid : transport.socket.clientSock ≠ invalidSocket
      · simp only [if_pos valid]
        cases outcome.recv with
        | data chunk => exact framer.advances_chunk chunk outcome.reconnect
        | closed => exact framer.advances_nil _ _ _
        | interrupted => exact framer.advances_nil _ _ _
        | wouldBlock => exact framer.advances_nil _ _ _
        | failed => exact framer.advances_nil _ _ _
      · simp only [if_neg valid]
        exact framer.advances_nil _ _ _
  | noConnection => exact ⟨_, rfl, framer.advances_nil _ _ _⟩
  | serverPortSetup => exact ⟨_, rfl, framer.advances_nil _ _ _⟩
  | serverListening => exact ⟨_, rfl, framer.advances_nil _ transport.socket _⟩
  | unknown => exact ⟨_, rfl, framer.advances_nil _ transport.socket _⟩

end SocketTransport

/-! ## Runs of the receive loop -/

/-- The receive loop under way: the transport, the text it has received, and the
calls of the receive callback it has made. -/
structure Reception where
  transport : SocketTransport
  received : Bytes
  delivered : List Invocation

namespace Reception

/-- One turn of the receive loop. -/
def step (reception : Reception) (outcome : RxOutcome) : Option Reception :=
  (reception.transport.updateRx outcome).map fun result =>
    { transport := result.transport
      received := reception.received ++ reception.transport.heard outcome
      delivered := reception.delivered ++ result.invocations }

/-- The receive loop over the answers of its system calls. -/
def receive
    (transport : SocketTransport)
    (outcomes : List RxOutcome) : Option Reception :=
  TransitionSystem.run step
    { transport := transport, received := [], delivered := [] } outcomes

/-- The framing invariant, for a loop that was entered with the text
`pending` in `m_CmdBuffer` and `count` callbacks already made. -/
structure Framed
    (pending : Bytes)
    (count : Nat)
    (reception : Reception) : Prop where
  framer : reception.transport.Framer
  cmdBuffer :
    reception.transport.cmdBuffer =
      residue newline (pending ++ reception.received)
  delivered :
    reception.delivered =
      numbered (count + 1)
        (terminated newline (pending ++ reception.received))
  invokeCnt :
    reception.transport.invokeCnt = count + reception.delivered.length

/-- A turn of the loop preserves the framing invariant. -/
theorem Framed.step
    {reception next : Reception}
    {outcome : RxOutcome}
    (framed : Framed pending count reception)
    (stepped : reception.step outcome = some next) :
    Framed pending count next := by
  obtain ⟨result, updated, advances⟩ := framed.framer.updateRx outcome
  simp only [Reception.step, updated, Option.map_some, Option.some.injEq]
    at stepped
  subst stepped
  have split :=
    Separator.append newline (pending ++ reception.received)
      (reception.transport.heard outcome)
  rw [← framed.cmdBuffer, List.append_assoc] at split
  refine ⟨advances.framer, advances.cmdBuffer.trans split.2.symm, ?_, ?_⟩
  · have counted :
        count + (terminated newline (pending ++ reception.received)).length =
          reception.transport.invokeCnt := by
      rw [framed.invokeCnt, framed.delivered]
      simp [numbered]
    simp only [advances.invocations, split.1, numbered_append, ← framed.delivered,
      ← counted]
    congr 2
    omega
  · simp only [advances.invokeCnt, advances.invocations, framed.invokeCnt,
      List.length_append]
    simp [numbered, Nat.add_assoc]

/-- A loop that is entered with an incomplete command has the invariant. -/
theorem framed_start
    {transport : SocketTransport}
    (framer : transport.Framer) :
    Framed transport.cmdBuffer transport.invokeCnt
      { transport := transport, received := [], delivered := [] } := by
  have nothing := of_not_mem framer.incomplete
  refine ⟨framer, ?_, ?_, ?_⟩ <;> simp [nothing]

/-- The loop never gets stuck in block mode, and keeps the framing invariant. -/
theorem receive_framed
    {transport : SocketTransport}
    (framer : transport.Framer)
    (outcomes : List RxOutcome) :
    ∃ reception, receive transport outcomes = some reception ∧
      Framed transport.cmdBuffer transport.invokeCnt reception := by
  refine TransitionSystem.exists_run_of_progress (fun reception outcome _ framed => ?_)
    (framed_start framer)
  obtain ⟨result, updated, -⟩ := framed.framer.updateRx outcome
  obtain ⟨next, stepped⟩ : ∃ next, reception.step outcome = some next :=
    ⟨_, Option.map_eq_some_iff.mpr ⟨result, updated, rfl⟩⟩
  exact ⟨next, stepped, framed.step stepped⟩

end Reception

/-! ## Receiving on one connection -/

/-- The answers of `recv` after which the connection is still there. -/
def RecvOutcome.Open : RecvOutcome limit → Prop
  | .data _ | .interrupted | .wouldBlock => True
  | .closed | .failed => False

/-- The bytes `recv` handed out over several polls. -/
def streamOf (outcomes : List RxOutcome) : Bytes :=
  outcomes.flatMap fun outcome => outcome.recv.bytes

/-- The text in these bytes: every answer of `recv` read as a C string. -/
def textOf (outcomes : List RxOutcome) : Bytes :=
  outcomes.flatMap fun outcome => cString outcome.recv.bytes

/-- Answers without zero bytes are all text. -/
theorem textOf_eq_streamOf
    {outcomes : List RxOutcome}
    (nonzero : (0 : UInt8) ∉ streamOf outcomes) :
    textOf outcomes = streamOf outcomes := by
  unfold textOf streamOf at *
  induction outcomes with
  | nil => rfl
  | cons outcome outcomes inductionHypothesis =>
      simp only [List.flatMap_cons, List.mem_append, not_or] at nonzero ⊢
      rw [cString_eq_self nonzero.1, inductionHypothesis nonzero.2]

namespace SocketTransport

/-- The transport has a client to read from. -/
structure Online (transport : SocketTransport) : Prop where
  connected : transport.socket.connectionState = .connected
  valid : transport.socket.clientSock ≠ invalidSocket

/-- A poll on an open connection leaves the socket alone. -/
theorem Online.updateRx_socket
    {transport : SocketTransport}
    {outcome : RxOutcome}
    {result : RxResult}
    (online : transport.Online)
    (blockMode : transport.receiveMode = .modeBlock)
    (remains : outcome.recv.Open)
    (updated : transport.updateRx outcome = some result) :
    result.transport.socket = transport.socket := by
  unfold updateRx at updated
  simp only [online.connected, blockMode, Option.some.injEq] at updated
  subst updated
  unfold afterRead LinuxSocket.readBlock
  simp only [if_pos online.valid]
  cases received : outcome.recv with
  | data chunk =>
      simp only [if_true]
      split
      · exact deliver_socket _
      · rfl
  | interrupted => rfl
  | wouldBlock => rfl
  | closed => simp [received, RecvOutcome.Open] at remains
  | failed => simp [received, RecvOutcome.Open] at remains

end SocketTransport

namespace Reception

/-- On an open connection the receive loop hears all the text and keeps its
socket. -/
theorem received_of_open
    {reception final : Reception}
    {outcomes : List RxOutcome}
    (framed : Framed pending count reception)
    (online : reception.transport.Online)
    (remains : ∀ outcome ∈ outcomes, outcome.recv.Open)
    (performed : TransitionSystem.run step reception outcomes = some final) :
    final.transport.socket = reception.transport.socket ∧
      final.received = reception.received ++ textOf outcomes := by
  induction outcomes generalizing reception with
  | nil =>
      cases performed
      simp [textOf]
  | cons outcome outcomes inductionHypothesis =>
      obtain ⟨next, stepped, rest⟩ :=
        TransitionSystem.run_cons_eq_some.mp performed
      have nextFramed := framed.step stepped
      unfold step at stepped
      obtain ⟨result, updated, rfl⟩ := Option.map_eq_some_iff.mp stepped
      have same :=
        online.updateRx_socket framed.framer.blockMode
          (remains outcome List.mem_cons_self) updated
      have nextOnline : result.transport.Online :=
        ⟨same ▸ online.connected, same ▸ online.valid⟩
      obtain ⟨socket, received⟩ :=
        inductionHypothesis nextFramed nextOnline
          (fun other present => remains other (List.mem_cons_of_mem _ present))
          rest
      refine ⟨socket.trans same, ?_⟩
      rw [received]
      simp [textOf, SocketTransport.heard, online.connected, online.valid]

/-- The commands and reply ids of numbered invocations. -/
theorem map_replyID_numbered
    (first : Nat)
    (commands : List Bytes) :
    (numbered first commands).map Invocation.replyID =
      List.range' first commands.length := by
  induction commands generalizing first with
  | nil => rfl
  | cons command commands inductionHypothesis =>
      simp [numbered_cons, inductionHypothesis, List.range'_succ]

/-- However `recv` cuts a stream without zero bytes, the callback has been
passed exactly its newline-terminated segments, under the reply ids from one
on, and `m_CmdBuffer` holds what follows its last newline. -/
theorem receive_frames_stream
    {socket : LinuxSocket}
    {outcomes : List RxOutcome}
    (connected : socket.connectionState = .connected)
    (valid : socket.clientSock ≠ invalidSocket)
    (remains : ∀ outcome ∈ outcomes, outcome.recv.Open)
    (nonzero : (0 : UInt8) ∉ streamOf outcomes) :
    ∃ reception,
      receive (.new socket) outcomes = some reception ∧
        reception.delivered.map Invocation.command =
          terminated newline (streamOf outcomes) ∧
        reception.delivered.map Invocation.replyID =
          List.range' 1 reception.delivered.length ∧
        reception.transport.cmdBuffer =
          residue newline (streamOf outcomes) := by
  have framer := SocketTransport.framer_new socket
  obtain ⟨reception, performed, framed⟩ := receive_framed framer outcomes
  have heard :=
    received_of_open (framed_start framer) ⟨connected, valid⟩ remains performed
  rw [textOf_eq_streamOf nonzero, List.nil_append] at heard
  have whole : ([] : Bytes) ++ reception.received = streamOf outcomes := heard.2
  have delivered := framed.delivered
  have cmdBuffer := framed.cmdBuffer
  simp only [SocketTransport.new, whole] at delivered cmdBuffer
  refine ⟨reception, performed, ?_, ?_, cmdBuffer⟩
  · rw [delivered, map_command_numbered]
  · rw [delivered, map_replyID_numbered]
    simp [numbered]

/-- A server connection as `listenForClient` leaves it. -/
def acceptedSocket : LinuxSocket where
  port := 12070
  connectionMode := .server
  connectionState := .connected
  serverSock := 3
  clientSock := 5

/-- Polls that hand out two commands, the second in two pieces. -/
def twoPieces : List RxOutcome :=
  [polled (-1) (.data ⟨ascii ['a', '\n', 'b'], by decide, by decide⟩),
    polled (-1) .wouldBlock,
    polled (-1) (.data ⟨ascii ['c', '\n'], by decide, by decide⟩)]

/-- Both commands reach the callback whole. -/
theorem receive_frames_stream_two_pieces :
    ∃ reception, receive (.new acceptedSocket) twoPieces = some reception ∧
      reception.delivered.map Invocation.command =
        [ascii ['a'], ascii ['b', 'c']] := by
  obtain ⟨reception, performed, commands, _⟩ :=
    @receive_frames_stream acceptedSocket twoPieces rfl (by decide)
      (by simp [twoPieces, polled, RecvOutcome.Open]) (by decide)
  exact ⟨reception, performed, commands.trans (by decide)⟩

end Reception
end ProtobufSandbox
