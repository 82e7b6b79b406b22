import ProtobufSandbox.Bytes

/-!
# The TCP socket class

`LinuxSocket` keeps a listening and a client descriptor, a connection mode and
a connection state. Its operations are functions of the object and of what the
system calls they make answer. The calls that create, close or write to a
descriptor are logged in order.
-/

namespace ProtobufSandbox

/-- `ISocket::ConnectionMode_t`. -/
inductive ConnectionMode
  | client
  | server
  deriving DecidableEq

/-- `ISocket::ConnectionState_t`. -/
inductive ConnectionState
  | unknown
  | noConnection
  | serverPortSetup
  | serverListening
  | connected
  deriving DecidableEq

/-- `INVALID_SOCKET`; `SOCKET_ERROR` is the same number. -/
def invalidSocket : Int := -1

/-- A system call on a descriptor that the socket class made. `socket` and
`accept` appear when they return a descriptor, `send` with the data and the
number of bytes the kernel took, nothing standing for an error. -/
inductive SysCall
  | socket (descriptor : Int)
  | accept (descriptor : Int)
  | close (descriptor : Int)
  | send (descriptor : Int) (data : Bytes) (taken : Option Nat)
  deriving DecidableEq

/-- What one successful `recv` with room for `limit` bytes delivers. -/
structure Chunk (limit : Nat) where
  bytes : Bytes
  nonempty : bytes ≠ []
  fits : bytes.length ≤ limit

/-- The answers of `recv` that `readBlock` tells apart: data, an orderly
shutdown by the peer, and the classes of `errno`. -/
inductive RecvOutcome (limit : Nat)
  | data (chunk : Chunk limit)
  | closed
  | interrupted
  | wouldBlock
  | failed

/-- The answers of a one-byte `read` that `readLine` tells apart. -/
inductive ReadOutcome
  | byte (value : UInt8)
  | closed
  | interrupted
  | wouldBlock
  | failed
  deriving DecidableEq

/-- The system calls of `reconnect`: the descriptor from `socket`, and whether
`setsockopt` and `connect` succeed. -/
structure ReconnectOutcome where
  socket : Int
  setsockopt : Bool
  connect : Bool

/-- The system calls of `init`: those of the listening socket, and those of
`reconnect` in client mode. -/
structure InitOutcome where
  socket : Int
  bind : Bool
  listen : Bool
  reconnect : ReconnectOutcome

/-- The system calls of a server `init` that succeeds. -/
def InitOutcome.listening (descriptor : Int) : InitOutcome where
  socket := descriptor
  bind := true
  listen := true
  reconnect := { socket := -1, setsockopt := false, connect := false }

/-- The fields of `LinuxSocket` its operations read. -/
structure LinuxSocket where
  port : Int
  connectionMode : ConnectionMode
  connectionState : ConnectionState
  serverSock : Int
  clientSock : Int
  deriving DecidableEq

/-- The answer of an operation, the object after it, and its system calls. -/
structure SocketResult where
  returns : Bool
  socket : LinuxSocket
  calls : List SysCall

/-- The answer of a read, the count and buffer it hands back, and the object
after it. -/
structure ReadResult where
  returns : Bool
  numRead : Int
  rcvBuffer : Bytes
  socket : LinuxSocket

namespace LinuxSocket

/-- The constructor. -/
def new : LinuxSocket where
  port := 0
  connectionMode := .server
  connectionState := .noConnection
  serverSock := invalidSocket
  clientSock := invalidSocket

/-- Close the old client socket, create a new one and connect it. -/
def reconnect
    (socket : LinuxSocket)
    (outcome : ReconnectOutcome) : SocketResult :=
  let closing :=
    if socket.clientSock ≠ -1 then [SysCall.close socket.clientSock] else []
  if outcome.socket = -1 then
    { returns := false
      socket := { socket with clientSock := -1 }
      calls := closing }
  else if outcome.setsockopt = false then
    { returns := false
      socket := { socket with clientSock := -1 }
      calls := closing ++ [.socket outcome.socket, .close outcome.socket] }
  else
    -- A failed `connect` leaves the new socket in place.
    { returns := outcome.connect
      socket := { socket with clientSock := outcome.socket }
      calls := closing ++ [.socket outcome.socket] }

/-- Set up the listening socket, or connect in client mode. -/
def init
    (socket : LinuxSocket)
    (mode : ConnectionMode)
    (port : Int)
    (outcome : InitOutcome) : SocketResult :=
  let configured := { socket with connectionMode := mode, port := port }
  match mode with
  | .server =>
      let opened := { configured with serverSock := outcome.socket }
      if outcome.socket = invalidSocket then
        { returns := false, socket := opened, calls := [] }
      else if outcome.bind = false then
        { returns := false, socket := opened, calls := [.socket outcome.socket] }
      else if outcome.listen = false then
        { returns := false
          socket := { opened with serverSock := invalidSocket }
          calls := [.socket outcome.socket, .close outcome.socket] }
      else
        { returns := true
          socket := { opened with connectionState := .serverPortSetup }
          calls := [.socket outcome.socket] }
  | .client =>
      let reconnected := configured.reconnect outcome.reconnect
      { reconnected with
        socket :=
          { reconnected.socket with
            connectionState :=
              if reconnected.returns then .connected else .noConnection } }

/-- Accept a client; `accepted` is what `accept` returns. -/
def listenForClient
    (socket : LinuxSocket)
    (accepted : Int) : SocketResult :=
  if socket.connectionMode = .server ∧ socket.serverSock ≠ invalidSocket then
    -- The answer of `accept` is stored whether it is a descriptor or not.
    if accepted ≠ invalidSocket then
      { returns := true
        socket :=
          { socket with clientSock := accepted, connectionState := .connected }
        calls := [.accept accepted] }
    else
      { returns := true
        socket := { socket with clientSock := accepted }
        calls := [] }
  else
    { returns := false, socket := socket, calls := [] }

/-- Send to the client; `taken` is the answer of `send`. -/
def sendData
    (socket : LinuxSocket)
    (data : Bytes)
    (taken : Option Nat) : SocketResult :=
  if data.length = 0 then
    { returns := true, socket := socket, calls := [] }
  else if socket.clientSock = invalidSocket then
    { returns := false, socket := socket, calls := [] }
  else
    { returns := taken.isSome
      socket := socket
      calls := [.send socket.clientSock data taken] }

/-- The variables of the loop of `readLine`, with the remaining time in
microseconds. -/
structure ReadLineState where
  rcvBuffer : Bytes
  numRead : Nat
  timeout_us : Int
  firstChar : Bool
  connectionState : ConnectionState

/-- The loop of `readLine`, one turn for each answer of `read`. It has no result
while it would still be reading. -/
def readLineLoop
    (socket : LinuxSocket)
    (bufferLength : Nat)
    (timeout_us : Int)
    (stopOnDisconnect : Bool) :
    List ReadOutcome → ReadLineState → Option ReadResult
  | [], _ => none
  | outcome :: outcomes, state =>
      let finish (returns : Bool) (numRead : Int) (state : ReadLineState) :=
        { returns := returns
          numRead := numRead
          rcvBuffer := state.rcvBuffer
          socket := { socket with connectionState := state.connectionState } }
      -- The test at the end of a turn that did not finish the line.
      let nextTurn (state : ReadLineState) :=
        if state.timeout_us ≤ 0 then
          if 0 < state.numRead then some (finish false state.numRead state)
          else some (finish true state.numRead state)
        else
          readLineLoop socket bufferLength timeout_us stopOnDisconnect
            outcomes state
      match outcome with
      | .interrupted => nextTurn state
      | .wouldBlock =>
          nextTurn { state with timeout_us := state.timeout_us - 250 }
      | .failed => some (finish false state.numRead state)
      | .closed =>
          let dropped := { state with connectionState := .noConnection }
          if stopOnDisconnect then some (finish false (-1) dropped)
          else nextTurn { dropped with timeout_us := state.timeout_us - 250 }
      | .byte value =>
          let stored :=
            { state with
              rcvBuffer := state.rcvBuffer.set state.numRead value
              firstChar := true
              timeout_us :=
                if state.firstChar then state.timeout_us else timeout_us }
          if value = newline ∨ value = carriageReturn then
            some (finish true stored.numRead
              { stored with
                rcvBuffer := stored.rcvBuffer.set stored.numRead 0 })
          else if bufferLength ≤ stored.numRead + 1 then
            some (finish true (stored.numRead + 1) stored)
          else
            nextTurn { stored with numRead := stored.numRead + 1 }

/-- Read a line of at most `bufferLength` bytes into a cleared buffer. -/
def readLine
    (socket : LinuxSocket)
    (bufferLength : Nat)
    (timeout_us : Int)
    (stopOnDisconnect : Bool)
    (outcomes : List ReadOutcome) : Option ReadResult :=
  readLineLoop socket bufferLength timeout_us stopOnDisconnect outcomes
    { rcvBuffer := List.replicate bufferLength 0
      numRead := 0
      timeout_us := timeout_us
      firstChar := false
      connectionState := socket.connectionState }

/-- Read what is there, up to `bufferLength` bytes. -/
def readBlock
    (socket : LinuxSocket)
    (rcvBuffer : Bytes)
    {bufferLength : Nat}
    (outcome : RecvOutcome bufferLength) : ReadResult :=
  if socket.clientSock ≠ invalidSocket then
    match outcome with
    | .data chunk =>
        { returns := true
          numRead := chunk.bytes.length
          rcvBuffer := overwrite rcvBuffer chunk.bytes
          socket := socket }
    | .closed =>
        { returns := false, numRead := -1, rcvBuffer := rcvBuffer, socket := socket }
    | .interrupted | .wouldBlock =>
        { returns := true, numRead := 0, rcvBuffer := rcvBuffer, socket := socket }
    | .failed =>
        { returns := false, numRead := 0, rcvBuffer := rcvBuffer, socket := socket }
  else
    { returns := true, numRead := 0, rcvBuffer := rcvBuffer, socket := socket }

/-- Reconnect in client mode, go back to listening in server mode. -/
def resetConnection
    (socket : LinuxSocket)
    (outcome : ReconnectOutcome) : SocketResult :=
  match socket.connectionMode with
  | .client =>
      let reconnected := socket.reconnect outcome
      { reconnected with
        socket :=
          { reconnected.socket with
            connectionState :=
              if reconnected.returns then .connected else .noConnection } }
  | .server =>
      if socket.port ≤ 0 then
        { returns := false, socket := socket, calls := [] }
      else
        { returns := true
          socket := { socket with connectionState := .serverPortSetup }
          calls := [] }

/-- Close both descriptors. -/
def closeConnection (socket : LinuxSocket) : SocketResult :=
  { returns := true
    socket :=
      { socket with clientSock := invalidSocket, serverSock := invalidSocket }
    calls :=
      (if socket.clientSock ≠ invalidSocket then
        [SysCall.close socket.clientSock] else []) ++
      (if socket.serverSock ≠ invalidSocket then
        [SysCall.close socket.serverSock] else []) }

/-- `readBlock` leaves the object alone. -/
theorem readBlock_socket
    (socket : LinuxSocket)
    (rcvBuffer : Bytes)
    (outcome : RecvOutcome limit) :
    (socket.readBlock rcvBuffer outcome).socket = socket := by
  unfold LinuxSocket.readBlock
  split
  · cases outcome <;> rfl
  · rfl

/-! ## Turns of the loop of `readLine` -/

section Turns

variable {socket : LinuxSocket} {bufferLength : Nat} {timeout_us : Int}
variable {stopOnDisconnect : Bool}

/-- What a call hands back after its last turn. -/
def finish
    (socket : LinuxSocket)
    (returns : Bool)
    (numRead : Int)
    (last : ReadLineState) : ReadResult :=
  { returns := returns
    numRead := numRead
    rcvBuffer := last.rcvBuffer
    socket := { socket with connectionState := last.connectionState } }

/-- The state with a byte stored at its place. -/
def ReadLineState.store
    (state : ReadLineState)
    (timeout_us : Int)
    (value : UInt8) : ReadLineState :=
  { state with
    rcvBuffer := state.rcvBuffer.set state.numRead value
    firstChar := true
    timeout_us := if state.firstChar then state.timeout_us else timeout_us }

/-- A turn that does not end the call, up to the test of the time. -/
inductive Turn
    (bufferLength : Nat)
    (timeout_us : Int)
    (stopOnDisconnect : Bool)
    (state : ReadLineState) : ReadOutcome → ReadLineState → Prop
  | interrupted :
      Turn bufferLength timeout_us stopOnDisconnect state .interrupted state
  | wouldBlock :
      Turn bufferLength timeout_us stopOnDisconnect state .wouldBlock
        { state with timeout_us := state.timeout_us - 250 }
  | closed :
      stopOnDisconnect = false →
      Turn bufferLength timeout_us stopOnDisconnect state .closed
        { state with
          connectionState := .noConnection
          timeout_us := state.timeout_us - 250 }
  | byte (value : UInt8) :
      ¬ (value = newline ∨ value = carriageReturn) →
      state.numRead + 1 < bufferLength →
      Turn bufferLength timeout_us stopOnDisconnect state (.byte value)
        { state.store timeout_us value with numRead := state.numRead + 1 }

/-- A turn that ends the call: the answer, the count, and the last state. -/
inductive LastTurn
    (bufferLength : Nat)
    (timeout_us : Int)
    (stopOnDisconnect : Bool)
    (state : ReadLineState) : ReadOutcome → Bool → Int → ReadLineState → Prop
  | failed :
      LastTurn bufferLength timeout_us stopOnDisconnect state .failed
        false state.numRead state
  | closed :
      stopOnDisconnect = true →
      LastTurn bufferLength timeout_us stopOnDisconnect state .closed
        false (-1) { state with connectionState := .noConnection }
  | endOfLine (value : UInt8) :
      value = newline ∨ value = carriageReturn →
      LastTurn bufferLength timeout_us stopOnDisconnect state (.byte value)
        true state.numRead
        { state.store timeout_us value with
          rcvBuffer := (state.store timeout_us value).rcvBuffer.set state.numRead 0 }
  | full (value : UInt8) :
      ¬ (value = newline ∨ value = carriageReturn) →
      bufferLength ≤ state.numRead + 1 →
      LastTurn bufferLength timeout_us stopOnDisconnect state (.byte value)
        true (state.numRead + 1) (state.store timeout_us value)

/-- The test at the end of a turn: when the time is over, the call ends, with
success if nothing was read. -/
theorem endOfTurn_cases
    {next : ReadLineState}
    {further : Option ReadResult}
    {read : ReadResult}
    (finished :
      (if next.timeout_us ≤ 0 then
        if 0 < next.numRead then some (socket.finish false next.numRead next)
        else some (socket.finish true next.numRead next)
      else further) = some read) :
    (next.timeout_us ≤ 0 ∧
        read = socket.finish (decide (next.numRead = 0)) next.numRead next) ∨
      (0 < next.timeout_us ∧ further = some read) := by
  by_cases expired : next.timeout_us ≤ 0
  · refine .inl ⟨expired, ?_⟩
    rw [if_pos expired] at finished
    by_cases begun : 0 < next.numRead
    · rw [if_pos begun] at finished
      rw [decide_eq_false (Nat.ne_of_gt begun)]
      exact (Option.some.inj finished).symm
    · rw [if_neg begun] at finished
      rw [decide_eq_true (Nat.eq_zero_of_not_pos begun)]
      exact (Option.some.inj finished).symm
  · rw [if_neg expired] at finished
    exact .inr ⟨by omega, finished⟩

/-- What the loop can do with an answer of `read`. -/
theorem readLineLoop_cases
    {outcome : ReadOutcome}
    {outcomes : List ReadOutcome}
    {state : ReadLineState}
    {read : ReadResult}
    (finished :
      socket.readLineLoop bufferLength timeout_us stopOnDisconnect
        (outcome :: outcomes) state = some read) :
    (∃ returns numRead last,
      LastTurn bufferLength timeout_us stopOnDisconnect state outcome
          returns numRead last ∧
        read = socket.finish returns numRead last) ∨
      ∃ next,
        Turn bufferLength timeout_us stopOnDisconnect state outcome next ∧
          ((next.timeout_us ≤ 0 ∧
              read = socket.finish (decide (next.numRead = 0)) next.numRead next) ∨
            (0 < next.timeout_us ∧
              socket.readLineLoop bufferLength timeout_us stopOnDisconnect
                outcomes next = some read)) := by
  cases outcome with
  | interrupted => exact .inr ⟨state, .interrupted, endOfTurn_cases finished⟩
  | wouldBlock => exact .inr ⟨_, .wouldBlock, endOfTurn_cases finished⟩
  | failed => exact .inl ⟨_, _, _, .failed, (Option.some.inj finished).symm⟩
  | closed =>
      cases stopOnDisconnect with
      | true => exact .inl ⟨_, _, _, .closed rfl, (Option.some.inj finished).symm⟩
      | false => exact .inr ⟨_, .closed rfl, endOfTurn_cases finished⟩
  | byte value =>
      simp only [readLineLoop] at finished
      by_cases ending : value = newline ∨ value = carriageReturn
      · rw [if_pos ending] at finished
        exact .inl ⟨_, _, _, .endOfLine value ending,
          (Option.some.inj finished).symm⟩
      · rw [if_neg ending] at finished
        by_cases full : bufferLength ≤ state.numRead + 1
        · rw [if_pos full] at finished
          exact .inl ⟨_, _, _, .full value ending full,
            (Option.some.inj finished).symm⟩
        · rw [if_neg full] at finished
          exact .inr ⟨_, .byte value ending (Nat.lt_of_not_le full),
            endOfTurn_cases finished⟩

/-- `readLine` changes at most the connection state. -/
theorem readLineLoop_socket
    {outcomes : List ReadOutcome}
    {state : ReadLineState}
    {read : ReadResult}
    (finished :
      socket.readLineLoop bufferLength timeout_us stopOnDisconnect outcomes
        state = some read) :
    ∃ connectionState,
      read.socket = { socket with connectionState := connectionState } := by
  induction outcomes generalizing state with
  | nil => cases finished
  | cons outcome outcomes inductionHypothesis =>
      rcases readLineLoop_cases finished with
        ⟨returns, numRead, last, -, rfl⟩ | ⟨next, -, ⟨-, rfl⟩ | ⟨-, further⟩⟩
      · exact ⟨last.connectionState, rfl⟩
      · exact ⟨next.connectionState, rfl⟩
      · exact inductionHypothesis further

end Turns

end LinuxSocket
end ProtobufSandbox
