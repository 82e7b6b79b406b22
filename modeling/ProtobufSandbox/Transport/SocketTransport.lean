import ProtobufSandbox.Foundation.Separator
import ProtobufSandbox.Socket.LinuxSocket

/-!
# The socket transport

`SocketTransport` polls a socket: it re-establishes the connection, accepts a
client, or reads what has arrived and hands every newline-terminated command to
the registered callback. `updateRx` is one poll, a function of the object and of
the answers of the system calls the poll makes.
-/

namespace ProtobufSandbox

/-- `m_ReadBlockSize`, the size of the read buffer. -/
def readBlockSize : Nat := 32768

/-- `SocketTransport::SocketReadMode_t`. -/
inductive SocketReadMode
  | modeLine
  | modeBlock
  | modeUntil
  deriving DecidableEq

/-- The fields of `SocketTransport` its poll reads; `callbackRegistered` says
whether `m_RecvCallbackPtr` is set. -/
structure SocketTransport where
  socket : LinuxSocket
  invokeCnt : Nat
  receiveMode : SocketReadMode
  stopOnDisconnect : Bool
  receiveTimeout_us : Int
  readBuffer : Bytes
  cmdBuffer : Bytes
  callbackRegistered : Bool

/-- The answers of the system calls that one poll may make. -/
structure RxOutcome where
  accept : Int
  recv : RecvOutcome (readBlockSize - 1)
  reads : List ReadOutcome
  reconnect : ReconnectOutcome

/-- A poll of a block-mode server in which `accept` and `recv` answer as given. -/
def polled
    (accepted : Int)
    (received : RecvOutcome (readBlockSize - 1)) : RxOutcome where
  accept := accepted
  recv := received
  reads := []
  reconnect := { socket := -1, setsockopt := false, connect := false }

/-- A call of the receive callback: the reply id and the command string. -/
structure Invocation where
  replyID : Nat
  command : Bytes
  deriving DecidableEq

/-- The answer of a poll, the object after it, the calls of the receive callback
it made, and its system calls. -/
structure RxResult where
  returns : Bool
  transport : SocketTransport
  invocations : List Invocation
  calls : List SysCall

namespace SocketTransport

/-- The constructor, with the socket of `UseSocket` and a registered callback. -/
def new (socket : LinuxSocket) : SocketTransport where
  socket := socket
  invokeCnt := 0
  receiveMode := .modeBlock
  stopOnDisconnect := true
  receiveTimeout_us := 1000000
  readBuffer := List.replicate readBlockSize 0
  cmdBuffer := []
  callbackRegistered := true

/-- The `find`/`substr` loop: push the text before each newline on `cmdStrs` and
keep what follows it. -/
def takeCommands : Nat → List Bytes → Bytes → List Bytes × Bytes
  | 0, cmdStrs, cmdBuffer => (cmdStrs, cmdBuffer)
  | turns + 1, cmdStrs, cmdBuffer =>
      match cmdBuffer.findIdx? (· = newline) with
      | none => (cmdStrs, cmdBuffer)
      | some idx =>
          takeCommands turns (cmdStrs ++ [cmdBuffer.take idx])
            (cmdBuffer.drop (idx + 1))

/-- The loop over `cmdStrs`: pass each command to the callback under the next
reply id. -/
def invokeAll (transport : SocketTransport) :
    List Bytes → SocketTransport × List Invocation
  | [] => (transport, [])
  | cmdStr :: cmdStrs =>
      if transport.callbackRegistered then
        let counted := { transport with invokeCnt := transport.invokeCnt + 1 }
        let rest := invokeAll counted cmdStrs
        (rest.1, ⟨counted.invokeCnt, cmdStr⟩ :: rest.2)
      else
        invokeAll transport cmdStrs

/-- Append the read buffer as a C string, clear it, and hand over the commands
now complete. -/
def deliver (transport : SocketTransport) : SocketTransport × List Invocation :=
  let appended := transport.cmdBuffer ++ cString transport.readBuffer
  -- Every turn of the loop removes at least one byte.
  let taken := takeCommands appended.length [] appended
  invokeAll
    { transport with
      readBuffer := List.replicate readBlockSize 0
      cmdBuffer := taken.2 }
    taken.1

/-- Passing commands to the callback changes only the count of the calls. -/
theorem invokeAll_keeps
    (transport : SocketTransport)
    (cmdStrs : List Bytes) :
    ∃ invokeCnt, (transport.invokeAll cmdStrs).1 =
      { transport with invokeCnt := invokeCnt } := by
  induction cmdStrs generalizing transport with
  | nil => exact ⟨transport.invokeCnt, rfl⟩
  | cons cmdStr cmdStrs inductionHypothesis =>
      unfold invokeAll
      split
      · exact inductionHypothesis { transport with invokeCnt := transport.invokeCnt + 1 }
      · exact inductionHypothesis transport

/-- Passing commands to the callback leaves the socket alone. -/
theorem invokeAll_socket
    (transport : SocketTransport)
    (cmdStrs : List Bytes) :
    (transport.invokeAll cmdStrs).1.socket = transport.socket := by
  obtain ⟨invokeCnt, same⟩ := transport.invokeAll_keeps cmdStrs
  rw [same]

/-- A delivery leaves the socket alone. -/
theorem deliver_socket (transport : SocketTransport) :
    transport.deliver.1.socket = transport.socket := by
  unfold deliver
  exact invokeAll_socket _ _

/-- What `updateRx` does with the answer of `readLine` or `readBlock`. -/
def afterRead
    (transport : SocketTransport)
    (read : ReadResult)
    (reconnect : ReconnectOutcome) : RxResult :=
  let received :=
    { transport with socket := read.socket, readBuffer := read.rcvBuffer }
  if read.returns then
    if 0 < read.numRead then
      let delivered := received.deliver
      { returns := true
        transport := delivered.1
        invocations := delivered.2
        calls := [] }
    else
      { returns := true, transport := received, invocations := [], calls := [] }
  else
    let reset := received.socket.resetConnection reconnect
    { returns := reset.returns
      transport := { received with socket := reset.socket }
      invocations := []
      calls := reset.calls }

/-- One poll of the receive thread. It has no result while `readLine` would
still be reading. -/
def updateRx
    (transport : SocketTransport)
    (outcome : RxOutcome) : Option RxResult :=
  match transport.socket.connectionState with
  | .noConnection =>
      let reset := transport.socket.resetConnection outcome.reconnect
      some
        { returns := reset.returns
          transport := { transport with socket := reset.socket }
          invocations := []
          calls := reset.calls }
  | .serverPortSetup =>
      let listened := transport.socket.listenForClient outcome.accept
      some
        { returns := listened.returns
          transport := { transport with socket := listened.socket }
          invocations := []
          calls := listened.calls }
  | .serverListening =>
      some
        { returns := true, transport := transport, invocations := [], calls := [] }
  | .connected =>
      match transport.receiveMode with
      | .modeLine =>
          (transport.socket.readLine readBlockSize transport.receiveTimeout_us
            transport.stopOnDisconnect outcome.reads).map fun read =>
              transport.afterRead read outcome.reconnect
      | .modeBlock =>
          some (transport.afterRead
            (transport.socket.readBlock transport.readBuffer outcome.recv)
            outcome.reconnect)
      | .modeUntil =>
          some
            { returns := false
              transport := transport
              invocations := []
              calls := [] }
  | .unknown =>
      some
        { returns := false, transport := transport, invocations := [], calls := [] }

/-! ## What a poll does to the socket -/

/-- A poll accepts a client, goes on with the socket it has, or resets the
connection. A read may have changed the state of the connection before. -/
inductive SocketStep
    (transport : SocketTransport)
    (outcome : RxOutcome) : LinuxSocket → List SysCall → Prop
  | accept
      (between : transport.socket.connectionState = .serverPortSetup) :
      SocketStep transport outcome
        (transport.socket.listenForClient outcome.accept).socket
        (transport.socket.listenForClient outcome.accept).calls
  | goOn
      (connectionState : ConnectionState)
      (elsewhere : transport.socket.connectionState ≠ .serverPortSetup) :
      SocketStep transport outcome
        { transport.socket with connectionState := connectionState } []
  | reset
      (connectionState : ConnectionState)
      (elsewhere : transport.socket.connectionState ≠ .serverPortSetup) :
      SocketStep transport outcome
        (LinuxSocket.resetConnection
          { transport.socket with connectionState := connectionState }
          outcome.reconnect).socket
        (LinuxSocket.resetConnection
          { transport.socket with connectionState := connectionState }
          outcome.reconnect).calls

/-- After a read the socket is kept or reset. -/
theorem socketStep_afterRead
    {transport : SocketTransport}
    {outcome : RxOutcome}
    {read : ReadResult}
    {connectionState : ConnectionState}
    (same :
      read.socket = { transport.socket with connectionState := connectionState })
    (elsewhere : transport.socket.connectionState ≠ .serverPortSetup) :
    SocketStep transport outcome
      (transport.afterRead read outcome.reconnect).transport.socket
      (transport.afterRead read outcome.reconnect).calls := by
  unfold afterRead
  split
  · split
    · dsimp only
      rw [deliver_socket, same]
      exact .goOn connectionState elsewhere
    · dsimp only
      rw [same]
      exact .goOn connectionState elsewhere
  · dsimp only
    rw [same]
    exact .reset connectionState elsewhere

/-- A poll does nothing else to the socket. -/
theorem socketStep_of_updateRx
    {transport : SocketTransport}
    {outcome : RxOutcome}
    {result : RxResult}
    (updated : transport.updateRx outcome = some result) :
    SocketStep transport outcome result.transport.socket result.calls := by
  unfold updateRx at updated
  cases state : transport.socket.connectionState with
  | noConnection =>
      simp only [state] at updated
      cases updated
      exact .reset transport.socket.connectionState (by simp [state])
  | serverPortSetup =>
      simp only [state] at updated
      cases updated
      exact .accept state
  | serverListening =>
      simp only [state] at updated
      cases updated
      exact .goOn transport.socket.connectionState (by simp [state])
  | unknown =>
      simp only [state] at updated
      cases updated
      exact .goOn transport.socket.connectionState (by simp [state])
  | connected =>
      simp only [state] at updated
      cases mode : transport.receiveMode with
      | modeLine =>
          simp only [mode, Option.map_eq_some_iff] at updated
          obtain ⟨read, finished, rfl⟩ := updated
          obtain ⟨connectionState, same⟩ :=
            LinuxSocket.readLineLoop_socket finished
          exact socketStep_afterRead same (by simp [state])
      | modeBlock =>
          simp only [mode, Option.some.injEq] at updated
          subst updated
          exact socketStep_afterRead (LinuxSocket.readBlock_socket _ _ _)
            (by simp [state])
      | modeUntil =>
          simp only [mode, Option.some.injEq] at updated
          subst updated
          exact .goOn transport.socket.connectionState (by simp [state])

end SocketTransport
end ProtobufSandbox
