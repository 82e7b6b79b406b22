import ProtobufSandbox.Transport.Framing

/-!
# The read buffer in block mode

A poll in block mode lets `recv` write into the read buffer and appends the buffer as a
C string. The buffer is cleared only after an append. It is nevertheless all zero at the
start of every read, whatever happened before, and one byte longer than what a read may
bring, so that the append stops in the buffer and takes nothing from earlier reads.
-/

namespace ProtobufSandbox

/-- What is written over zero bytes ends in a zero byte if it does not fill them. -/
theorem zero_mem_overwrite
    {size : Nat}
    {data : Bytes}
    (short : data.length < size) :
    (0 : UInt8) ∈ overwrite (List.replicate size 0) data := by
  rw [overwrite, List.drop_replicate]
  apply List.mem_append_right
  rw [List.mem_replicate]
  exact ⟨by omega, rfl⟩

/-- Data that fits leaves a buffer as long as it is. -/
theorem length_overwrite
    {buffer data : Bytes}
    (fits : data.length ≤ buffer.length) :
    (overwrite buffer data).length = buffer.length := by
  rw [overwrite, List.length_append, List.length_drop]
  omega

namespace SocketTransport

/-- Between two polls in block mode the read buffer is all zero. -/
structure Cleared (transport : SocketTransport) : Prop where
  blockMode : transport.receiveMode = .modeBlock
  zeros : transport.readBuffer = List.replicate readBlockSize 0

/-- The C string in the buffer ends in the buffer, and is the beginning of what was
received. -/
structure HoldsOnly (rcvBuffer received : Bytes) : Prop where
  size : rcvBuffer.length = readBlockSize
  terminated : (0 : UInt8) ∈ rcvBuffer
  current : cString rcvBuffer <+: received

/-- A buffer of zero bytes has the empty string. -/
theorem holdsOnly_zeros (received : Bytes) :
    HoldsOnly (List.replicate readBlockSize 0) received where
  size := List.length_replicate
  terminated := List.mem_replicate.mpr ⟨by decide, rfl⟩
  current := by
    have nothing := cString_overwrite_zeros readBlockSize []
    rw [overwrite, List.nil_append, List.length_nil, List.drop_zero] at nothing
    rw [nothing]
    exact List.nil_prefix

/-- A read into a cleared buffer leaves the beginning of what it has received. -/
theorem Cleared.readBlock
    {transport : SocketTransport}
    (cleared : transport.Cleared)
    (received : RecvOutcome (readBlockSize - 1)) :
    HoldsOnly (transport.socket.readBlock transport.readBuffer received).rcvBuffer
      received.bytes := by
  unfold LinuxSocket.readBlock
  rw [cleared.zeros]
  split
  · cases received with
    | data chunk =>
        have short : chunk.bytes.length < readBlockSize :=
          Nat.lt_of_le_of_lt chunk.fits (by decide)
        refine ⟨?_, zero_mem_overwrite short, ?_⟩
        · rw [length_overwrite (by rw [List.length_replicate]; omega),
            List.length_replicate]
        · rw [cString_overwrite_zeros]
          exact List.takeWhile_prefix _
    | closed | interrupted | wouldBlock | failed => exact holdsOnly_zeros _
  · exact holdsOnly_zeros _

/-- A delivery clears the buffer. -/
theorem cleared_deliver
    {transport : SocketTransport}
    (blockMode : transport.receiveMode = .modeBlock) :
    transport.deliver.1.Cleared := by
  unfold deliver
  obtain ⟨invokeCnt, same⟩ := invokeAll_keeps
    { transport with
      readBuffer := List.replicate readBlockSize 0
      cmdBuffer :=
        (takeCommands (transport.cmdBuffer ++ cString transport.readBuffer).length []
          (transport.cmdBuffer ++ cString transport.readBuffer)).2 }
    (takeCommands (transport.cmdBuffer ++ cString transport.readBuffer).length []
      (transport.cmdBuffer ++ cString transport.readBuffer)).1
  dsimp only
  rw [same]
  exact ⟨blockMode, rfl⟩

/-- A poll receives bytes. -/
def Receives (transport : SocketTransport) (outcome : RxOutcome) : Prop :=
  transport.socket.connectionState = .connected ∧
    (transport.socket.readBlock transport.readBuffer outcome.recv).returns = true ∧
    0 < (transport.socket.readBlock transport.readBuffer outcome.recv).numRead

/-- A poll appends the C string of a buffer to the text that waits for a newline, keeps
what is behind the last newline then, and passes on the commands in front of it if there
is a callback. -/
structure Appends (transport : SocketTransport) (rcvBuffer : Bytes) (result : RxResult) :
    Prop where
  kept : result.transport.cmdBuffer =
    Separator.residue newline (transport.cmdBuffer ++ cString rcvBuffer)
  passedOn : transport.callbackRegistered = true →
    result.invocations.map Invocation.command =
      Separator.terminated newline (transport.cmdBuffer ++ cString rcvBuffer)

/-- A poll appends nothing. -/
structure AppendsNothing (transport : SocketTransport) (result : RxResult) : Prop where
  kept : result.transport.cmdBuffer = transport.cmdBuffer
  passedOn : result.invocations = []

/-- A delivery keeps what is behind the last newline. -/
theorem cmdBuffer_deliver (transport : SocketTransport) :
    transport.deliver.1.cmdBuffer =
      Separator.residue newline (transport.cmdBuffer ++ cString transport.readBuffer) := by
  rw [deliver, takeCommands_eq _ _ _ (Nat.le_refl _), List.nil_append]
  obtain ⟨invokeCnt, same⟩ := invokeAll_keeps
    { transport with
      readBuffer := List.replicate readBlockSize 0
      cmdBuffer :=
        Separator.residue newline (transport.cmdBuffer ++ cString transport.readBuffer) }
    (Separator.terminated newline (transport.cmdBuffer ++ cString transport.readBuffer))
  dsimp only
  rw [same]

/-- A registered callback gets the commands in front of it. -/
theorem command_deliver
    (transport : SocketTransport)
    (registered : transport.callbackRegistered = true) :
    transport.deliver.2.map Invocation.command =
      Separator.terminated newline (transport.cmdBuffer ++ cString transport.readBuffer) := by
  rw [deliver_eq transport registered, map_command_numbered]

/-- What a poll in block mode does to the text that waits for a newline. -/
theorem updateRx_appends
    {transport : SocketTransport}
    (blockMode : transport.receiveMode = .modeBlock)
    {outcome : RxOutcome}
    {result : RxResult}
    (updated : transport.updateRx outcome = some result) :
    (transport.Receives outcome → transport.Appends
        (transport.socket.readBlock transport.readBuffer outcome.recv).rcvBuffer result) ∧
      (¬ transport.Receives outcome → transport.AppendsNothing result) := by
  unfold SocketTransport.updateRx at updated
  cases state : transport.socket.connectionState with
  | connected =>
      simp only [state, blockMode, Option.some.injEq] at updated
      subst updated
      unfold afterRead
      split
      case isTrue returned =>
        split
        case isTrue positive =>
          exact ⟨fun _ => ⟨cmdBuffer_deliver _, fun registered =>
              command_deliver _ registered⟩, fun nothing =>
            absurd ⟨state, returned, positive⟩ nothing⟩
        case isFalse nothing =>
          exact ⟨fun receives => absurd receives.2.2 nothing, fun _ => ⟨rfl, rfl⟩⟩
      case isFalse failed =>
        exact ⟨fun receives => absurd receives.2.1 failed, fun _ => ⟨rfl, rfl⟩⟩
  | noConnection | serverPortSetup | serverListening | unknown =>
      simp only [state, Option.some.injEq] at updated
      subst updated
      refine ⟨fun receives => ?_, fun _ => ⟨rfl, rfl⟩⟩
      exact absurd (state.symm.trans receives.1) (by decide)

/-- What follows a read leaves the buffer cleared: it is if anything was received. -/
theorem Cleared.afterRead
    {transport : SocketTransport}
    (cleared : transport.Cleared)
    (received : RecvOutcome (readBlockSize - 1))
    (reconnect : ReconnectOutcome) :
    (transport.afterRead (transport.socket.readBlock transport.readBuffer received)
      reconnect).transport.Cleared := by
  unfold LinuxSocket.readBlock
  split
  · cases received with
    | data chunk =>
        have positive : (0 : Int) < chunk.bytes.length := by
          have := List.length_pos_iff.mpr chunk.nonempty
          omega
        simp only [SocketTransport.afterRead, if_pos positive, if_true]
        exact cleared_deliver cleared.blockMode
    | closed | interrupted | wouldBlock | failed =>
        exact ⟨cleared.blockMode, cleared.zeros⟩
  · exact ⟨cleared.blockMode, cleared.zeros⟩

/-- Every poll in block mode has a result and leaves the buffer cleared. -/
theorem Cleared.updateRx
    {transport : SocketTransport}
    (cleared : transport.Cleared)
    (outcome : RxOutcome) :
    ∃ result, transport.updateRx outcome = some result ∧ result.transport.Cleared := by
  unfold SocketTransport.updateRx
  cases transport.socket.connectionState with
  | connected =>
      simp only [cleared.blockMode, Option.some.injEq, exists_eq_left']
      exact cleared.afterRead outcome.recv outcome.reconnect
  | noConnection | serverPortSetup | serverListening | unknown =>
      exact ⟨_, rfl, cleared.blockMode, cleared.zeros⟩

end SocketTransport

namespace Reception

open SocketTransport

/-- Every run in block mode goes on, with a cleared buffer. -/
theorem exists_receive_cleared
    {transport : SocketTransport}
    (cleared : transport.Cleared)
    (outcomes : List RxOutcome) :
    ∃ reception, receive transport outcomes = some reception ∧
      reception.transport.Cleared := by
  refine @TransitionSystem.exists_run_of_progress _ _ step
    (fun reception => reception.transport.Cleared) outcomes
    (fun reception outcome _ cleared => ?_) _ cleared
  obtain ⟨result, updated, nextCleared⟩ := cleared.updateRx outcome
  exact ⟨_, Option.map_eq_some_iff.mpr ⟨result, updated, rfl⟩, nextCleared⟩

/-- In every run of polls in block mode, with or without a callback, the read buffer is
all zero at each read. After the read its C string ends in the buffer, and is the
beginning of what this read has received; it is what the poll appends, if it has received
bytes. -/
theorem readBuffer_holds_current
    (socket : LinuxSocket)
    (callbackRegistered : Bool)
    (before : List RxOutcome)
    (outcome : RxOutcome) :
    ∃ reception result,
      receive { SocketTransport.new socket with callbackRegistered := callbackRegistered }
          before = some reception ∧
        reception.transport.updateRx outcome = some result ∧
        reception.transport.readBuffer = List.replicate readBlockSize 0 ∧
        HoldsOnly
          (reception.transport.socket.readBlock reception.transport.readBuffer
            outcome.recv).rcvBuffer
          outcome.recv.bytes ∧
        (reception.transport.Receives outcome → reception.transport.Appends
          (reception.transport.socket.readBlock reception.transport.readBuffer
            outcome.recv).rcvBuffer result) ∧
        (¬ reception.transport.Receives outcome →
          reception.transport.AppendsNothing result) := by
  obtain ⟨reception, performed, cleared⟩ := @exists_receive_cleared
    { SocketTransport.new socket with callbackRegistered := callbackRegistered } ⟨rfl, rfl⟩
    before
  obtain ⟨result, updated, -⟩ := cleared.updateRx outcome
  exact ⟨reception, result, performed, updated, cleared.zeros,
    cleared.readBlock outcome.recv, updateRx_appends cleared.blockMode updated⟩

end Reception
end ProtobufSandbox
