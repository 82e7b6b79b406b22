import ProtobufSandbox.Socket.Ownership

/-!
# Connection state and descriptors

The state of a connection and the two descriptors are three fields that the
operations write separately. They are meant to say the same: a connected object
has a client, an object that set up its port has a listening socket, and without
a connection nothing is sent. Every operation keeps them in step except in the
cases below, in which it writes one of the fields and forgets another.
-/

namespace ProtobufSandbox
namespace LinuxSocket

/-- The state of the connection and the descriptors say the same. -/
structure Coherent (socket : LinuxSocket) : Prop where
  connected :
    socket.connectionState = .connected → socket.clientSock ≠ invalidSocket
  portSetup :
    socket.connectionState = .serverPortSetup →
      socket.serverSock ≠ invalidSocket
  refuses :
    socket.connectionState ≠ .connected →
      ∀ data taken, data ≠ [] →
        (socket.sendData data taken).returns = false ∧
          (socket.sendData data taken).calls = []

/-- Data is refused without a call exactly by an object without a client. -/
theorem refuses_iff (socket : LinuxSocket) :
    (∀ data taken, data ≠ [] →
        (socket.sendData data taken).returns = false ∧
          (socket.sendData data taken).calls = []) ↔
      socket.clientSock = invalidSocket := by
  constructor
  · intro refuses
    by_contra valid
    have sent := (refuses [0] none (by simp)).2
    simp [sendData, valid] at sent
  · intro invalid data taken nonempty
    have length : data.length ≠ 0 := by simpa using nonempty
    simp [sendData, length, invalid]

/-- In terms of the fields: an object has a client exactly while it is
connected. -/
theorem coherent_iff (socket : LinuxSocket) :
    socket.Coherent ↔
      (socket.clientSock ≠ invalidSocket ↔
          socket.connectionState = .connected) ∧
        (socket.connectionState = .serverPortSetup →
          socket.serverSock ≠ invalidSocket) := by
  constructor
  · intro coherent
    refine ⟨⟨fun valid => ?_, coherent.connected⟩, coherent.portSetup⟩
    by_contra elsewhere
    exact valid ((refuses_iff socket).mp (coherent.refuses elsewhere))
  · rintro ⟨client, portSetup⟩
    refine ⟨client.mpr, portSetup, fun elsewhere => ?_⟩
    apply (refuses_iff socket).mpr
    by_contra valid
    exact elsewhere (client.mp valid)

/-! ## Where an operation forgets a field -/

/-- `socket` and `setsockopt` succeed and `connect` fails. -/
def ConnectFails (outcome : ReconnectOutcome) : Prop :=
  outcome.socket ≠ -1 ∧ outcome.setsockopt = true ∧ outcome.connect = false

instance ConnectFails.decidable (outcome : ReconnectOutcome) :
    Decidable (ConnectFails outcome) :=
  inferInstanceAs (Decidable (_ ∧ _ ∧ _))

/-- `init` sets the three fields in step unless it is a client whose `connect`
fails: the new descriptor stays. -/
def InitInStep (mode : ConnectionMode) (outcome : InitOutcome) : Prop :=
  mode = .client → ¬ ConnectFails outcome.reconnect

instance InitInStep.decidable (mode : ConnectionMode) (outcome : InitOutcome) :
    Decidable (InitInStep mode outcome) :=
  inferInstanceAs (Decidable (_ → _))

/-- The answers of `read` reach an end of file before the line is over, with
room for `room` more bytes and `left_us` microseconds left; a first byte sets the
time to `timeout_us`. -/
def endsInFile
    (timeout_us : Int) :
    List ReadOutcome → (room : Nat) → (left_us : Int) → (firstChar : Bool) → Bool
  | [], _, _, _ => false
  | .closed :: _, _, _, _ => true
  | .failed :: _, _, _, _ => false
  | .interrupted :: outcomes, room, left_us, firstChar =>
      decide (0 < left_us) &&
        endsInFile timeout_us outcomes room left_us firstChar
  | .wouldBlock :: outcomes, room, left_us, firstChar =>
      decide (250 < left_us) &&
        endsInFile timeout_us outcomes room (left_us - 250) firstChar
  | .byte value :: outcomes, room, left_us, firstChar =>
      let reset := if firstChar then left_us else timeout_us
      decide (value ≠ newline ∧ value ≠ carriageReturn ∧ 1 < room ∧ 0 < reset) &&
        endsInFile timeout_us outcomes (room - 1) reset true

/-- The operation writes the fields it has to write. -/
def InStep (socket : LinuxSocket) : Operation → Prop
  -- A failed `accept` overwrites the client of a connected object.
  | .listenForClient accepted =>
      ¬ (socket.connectionMode = .server ∧
        socket.serverSock ≠ invalidSocket ∧
        socket.connectionState = .connected ∧
        accepted = invalidSocket)
  | .readBlock _ _ _ | .sendData _ _ => True
  -- An end of file ends the connection and keeps the client.
  | .readLine bufferLength timeout_us _ outcomes =>
      ¬ (socket.connectionState = .connected ∧
        endsInFile timeout_us outcomes bufferLength timeout_us false = true)
  -- A failed `connect` leaves the new descriptor; going back to listening keeps
  -- the client and does not look for a listening socket.
  | .resetConnection outcome =>
      (socket.connectionMode = .client → ¬ ConnectFails outcome) ∧
        (socket.connectionMode = .server → 0 < socket.port →
          socket.serverSock ≠ invalidSocket ∧
            socket.connectionState ≠ .connected)
  -- Closing keeps the state.
  | .closeConnection =>
      socket.connectionState ≠ .connected ∧
        socket.connectionState ≠ .serverPortSetup

instance InStep.decidable (socket : LinuxSocket) :
    ∀ operation, Decidable (socket.InStep operation)
  | .listenForClient _ => inferInstanceAs (Decidable (¬ (_ ∧ _ ∧ _ ∧ _)))
  | .readBlock _ _ _ => isTrue trivial
  | .sendData _ _ => isTrue trivial
  | .readLine _ _ _ _ => inferInstanceAs (Decidable (¬ (_ ∧ _)))
  | .resetConnection _ =>
      inferInstanceAs (Decidable ((_ → ¬ _) ∧ (_ → _ → _ ∧ _)))
  | .closeConnection => inferInstanceAs (Decidable (_ ∧ _))

/-! ## One lemma an operation -/

/-- A reconnect leaves a client exactly when it succeeds or `connect` fails. -/
theorem reconnect_client
    (socket : LinuxSocket)
    (outcome : ReconnectOutcome) :
    (socket.reconnect outcome).socket.serverSock = socket.serverSock ∧
      ((socket.reconnect outcome).socket.clientSock ≠ invalidSocket ↔
        (socket.reconnect outcome).returns = true ∨ ConnectFails outcome) := by
  unfold reconnect ConnectFails
  by_cases noSocket : outcome.socket = -1
  · simp [noSocket, invalidSocket]
  · by_cases optionFails : outcome.setsockopt = false
    · simp [noSocket, optionFails, invalidSocket]
    · cases outcome.connect <;> simp [noSocket, optionFails, invalidSocket]

/-- After a reconnect that the state follows, the object is coherent unless
`connect` failed. -/
theorem coherent_reconnect_iff
    (socket : LinuxSocket)
    (outcome : ReconnectOutcome) :
    ({ (socket.reconnect outcome).socket with
        connectionState :=
          if (socket.reconnect outcome).returns then .connected
          else .noConnection } : LinuxSocket).Coherent ↔
      ¬ ConnectFails outcome := by
  obtain ⟨-, client⟩ := reconnect_client socket outcome
  rw [coherent_iff]
  simp only [client]
  cases returned : (socket.reconnect outcome).returns with
  | true =>
      have succeeded : ¬ ConnectFails outcome := by
        unfold reconnect at returned
        rintro ⟨opened, option, failed⟩
        simp [opened, option, failed] at returned
      simp [succeeded]
  | false => simp

/-- `init` leaves a new object coherent unless it is a client whose `connect`
fails. -/
theorem coherent_init_iff
    (mode : ConnectionMode)
    (port : Int)
    (outcome : InitOutcome) :
    (new.init mode port outcome).socket.Coherent ↔ InitInStep mode outcome := by
  cases mode with
  | client =>
      simpa [InitInStep, init] using
        coherent_reconnect_iff
          { new with connectionMode := .client, port := port }
          outcome.reconnect
  | server =>
      have inStep : InitInStep .server outcome := by simp [InitInStep]
      simp only [inStep, iff_true, coherent_iff, init]
      by_cases noSocket : outcome.socket = invalidSocket
      · simp [noSocket, new]
      · cases outcome.bind <;> cases outcome.listen <;> simp [noSocket, new]

/-- Behind a turn of `readLine` the answers reach an end of file if those that
follow do and there is time to read them; or it is the turn that reaches it. -/
theorem endsInFile_of_turn
    {bufferLength : Nat}
    {timeout_us : Int}
    {stopOnDisconnect : Bool}
    {state next : ReadLineState}
    {outcome : ReadOutcome}
    (turns : Turn bufferLength timeout_us stopOnDisconnect state outcome next)
    (outcomes : List ReadOutcome) :
    endsInFile timeout_us (outcome :: outcomes) (bufferLength - state.numRead)
          state.timeout_us state.firstChar = true ∧
        next.connectionState = .noConnection ∨
      endsInFile timeout_us (outcome :: outcomes) (bufferLength - state.numRead)
          state.timeout_us state.firstChar =
          (decide (0 < next.timeout_us) &&
            endsInFile timeout_us outcomes (bufferLength - next.numRead)
              next.timeout_us next.firstChar) ∧
        next.connectionState = state.connectionState := by
  cases turns with
  | interrupted => exact .inr ⟨rfl, rfl⟩
  | wouldBlock =>
      refine .inr ⟨?_, rfl⟩
      simp only [endsInFile]
      congr 1
      rw [decide_eq_decide]
      omega
  | closed => exact .inl ⟨rfl, rfl⟩
  | byte value ordinary room =>
      refine .inr ⟨?_, rfl⟩
      have ordinary : value ≠ newline ∧ value ≠ carriageReturn := not_or.mp ordinary
      have room : 1 < bufferLength - state.numRead := by omega
      rw [endsInFile, Nat.sub_sub]
      exact congrArg (· && _) (decide_eq_decide.mpr
        ⟨fun all => all.2.2.2, fun running =>
          ⟨ordinary.1, ordinary.2, room, running⟩⟩)

/-- A last turn of `readLine` reaches an end of file only when it meets it. -/
theorem endsInFile_of_lastTurn
    {bufferLength : Nat}
    {timeout_us : Int}
    {stopOnDisconnect returns : Bool}
    {state last : ReadLineState}
    {outcome : ReadOutcome}
    {numRead : Int}
    (ends : LastTurn bufferLength timeout_us stopOnDisconnect state outcome
      returns numRead last)
    (outcomes : List ReadOutcome) :
    last.connectionState =
      if endsInFile timeout_us (outcome :: outcomes)
          (bufferLength - state.numRead) state.timeout_us state.firstChar then
        .noConnection
      else state.connectionState := by
  cases ends with
  | failed => rfl
  | closed => rfl
  | endOfLine value ending =>
      have isEnd : ¬ (value ≠ newline ∧ value ≠ carriageReturn) :=
        fun ordinary => ending.elim ordinary.1 ordinary.2
      rw [endsInFile, decide_eq_false (fun all => isEnd ⟨all.1, all.2.1⟩)]
      rfl
  | full value ordinary full =>
      have noRoom : ¬ 1 < bufferLength - state.numRead := by omega
      rw [endsInFile, decide_eq_false (fun all => noRoom all.2.2.1)]
      rfl

/-- The loop of `readLine` leaves the connection as it was unless the answers
reach an end of file. -/
theorem readLineLoop_connectionState
    {socket : LinuxSocket}
    {bufferLength : Nat}
    {timeout_us : Int}
    {stopOnDisconnect : Bool}
    {outcomes : List ReadOutcome}
    {state : ReadLineState}
    {read : ReadResult}
    (finished :
      socket.readLineLoop bufferLength timeout_us stopOnDisconnect outcomes
        state = some read) :
    read.socket.connectionState =
      if endsInFile timeout_us outcomes (bufferLength - state.numRead)
          state.timeout_us state.firstChar then .noConnection
      else state.connectionState := by
  induction outcomes generalizing state with
  | nil => cases finished
  | cons outcome outcomes inductionHypothesis =>
      rcases readLineLoop_cases finished with
        ⟨returns, numRead, last, ends, rfl⟩ | ⟨next, turns, next_cases⟩
      · exact endsInFile_of_lastTurn ends outcomes
      · rcases next_cases with ⟨expired, rfl⟩ | ⟨running, further⟩
        · have noTime : ¬ 0 < next.timeout_us := by omega
          rcases endsInFile_of_turn turns outcomes with
            ⟨ended, dropped⟩ | ⟨same, kept⟩
          · rw [ended, if_pos rfl]
            exact dropped
          · rw [same, decide_eq_false noTime, Bool.false_and,
              if_neg Bool.false_ne_true]
            exact kept
        · have rest := inductionHypothesis further
          rcases endsInFile_of_turn turns outcomes with
            ⟨ended, dropped⟩ | ⟨same, kept⟩
          · rw [rest, ended, dropped, ite_self, if_pos rfl]
          · rw [rest, same, decide_eq_true running, Bool.true_and, kept]

/-! ## Runs -/

/-- The object after an operation. -/
def step (socket : LinuxSocket) (operation : Operation) : Option LinuxSocket :=
  (socket.perform operation).map Prod.fst

/-- An operation keeps an object coherent exactly when it writes the fields it
has to write. -/
theorem coherent_step_iff
    {socket next : LinuxSocket}
    {operation : Operation}
    (coherent : socket.Coherent)
    (stepped : socket.step operation = some next) :
    next.Coherent ↔ socket.InStep operation := by
  obtain ⟨client, portSetup⟩ := (coherent_iff socket).mp coherent
  cases operation with
  | listenForClient accepted =>
      obtain rfl := Option.some.inj stepped
      simp only [InStep, listenForClient]
      by_cases listening :
          socket.connectionMode = .server ∧ socket.serverSock ≠ invalidSocket
      · rw [if_pos listening]
        by_cases failed : accepted = invalidSocket
        · by_cases online : socket.connectionState = .connected
          · simp [coherent_iff, failed, online, listening]
          · simp [coherent_iff, failed, online, listening]
        · simp [coherent_iff, failed]
      · rw [if_neg listening]
        have refused := fun both => listening both
        simp only [coherent, true_iff]
        tauto
  | readBlock rcvBuffer limit outcome =>
      simp only [step, perform, readBlock_socket] at stepped
      obtain rfl := Option.some.inj stepped
      exact iff_of_true coherent trivial
  | readLine bufferLength timeout_us stopOnDisconnect outcomes =>
      simp only [step, perform, Option.map_map, Option.map_eq_some_iff] at stepped
      obtain ⟨read, finished, rfl⟩ := stepped
      obtain ⟨connectionState, same⟩ := readLineLoop_socket finished
      have follows := readLineLoop_connectionState finished
      simp only [Nat.sub_zero] at follows
      simp only [InStep, Function.comp_apply]
      rw [coherent_iff, follows]
      simp only [same]
      cases ended : endsInFile timeout_us outcomes bufferLength timeout_us false with
      | false => simpa [client] using portSetup
      | true => simp [client]
  | sendData data taken =>
      have same : (socket.sendData data taken).socket = socket := by
        unfold sendData
        split
        · rfl
        · split <;> rfl
      simp only [step, perform, Option.map_some, same] at stepped
      obtain rfl := Option.some.inj stepped
      exact iff_of_true coherent trivial
  | resetConnection outcome =>
      obtain rfl := Option.some.inj stepped
      simp only [InStep, resetConnection]
      cases mode : socket.connectionMode with
      | client => simpa using coherent_reconnect_iff socket outcome
      | server =>
          by_cases noPort : socket.port ≤ 0
          · have : ¬ 0 < socket.port := by omega
            simp [noPort, coherent, this]
          · have : 0 < socket.port := by omega
            simp [noPort, coherent_iff, this]
            tauto
  | closeConnection =>
      obtain rfl := Option.some.inj stepped
      simp only [InStep, closeConnection]
      rw [coherent_iff]
      simp

/-- After `init`, the state and the descriptors say the same along a run exactly
when `init` and every operation write the fields they have to write. -/
theorem coherent_along_iff
    {mode : ConnectionMode}
    {port : Int}
    {outcome : InitOutcome}
    {operations : List Operation}
    {final : LinuxSocket}
    (performed :
      TransitionSystem.run step (new.init mode port outcome).socket operations =
        some final) :
    TransitionSystem.Along step Coherent (new.init mode port outcome).socket
        operations ↔
      InitInStep mode outcome ∧
        TransitionSystem.Guarded step InStep
          (new.init mode port outcome).socket operations := by
  have noInvariant (socket : LinuxSocket) (operation : Operation)
      (next : LinuxSocket) (_ : True) (_ : socket.step operation = some next) :
      True := trivial
  have exactly (socket : LinuxSocket) (operation : Operation)
      (next : LinuxSocket) (_ : True) (coherent : socket.Coherent)
      (stepped : socket.step operation = some next) :
      next.Coherent ↔ socket.InStep operation :=
    coherent_step_iff coherent stepped
  have initially := coherent_init_iff mode port outcome
  have onRun (coherent : (new.init mode port outcome).socket.Coherent) :=
    TransitionSystem.along_iff_guarded noInvariant exactly trivial coherent
      performed
  constructor
  · intro along
    exact ⟨initially.mp along.head, (onRun along.head).mp along⟩
  · rintro ⟨initInStep, guarded⟩
    exact (onRun (initially.mpr initInStep)).mpr guarded

/-- A server that accepts a client and reads from it stays coherent. -/
theorem coherent_along_accept_and_read :
    TransitionSystem.Along step Coherent
      (new.init .server 12070 (.listening 3)).socket
      [.listenForClient 5, .readBlock [] 8 .wouldBlock] :=
  (@coherent_along_iff .server 12070 (.listening 3)
    [.listenForClient 5, .readBlock [] 8 .wouldBlock] _ rfl).mpr
      ⟨by decide, by decide⟩

/-- The operations of a server whose client hangs up. -/
def hangUp : List Operation :=
  [.listenForClient 5, .readBlock [] 8 .closed,
    .resetConnection { socket := -1, setsockopt := false, connect := false }]

/-- When the client hangs up, the server goes back to listening and keeps the
descriptor, so data is still sent to it. -/
theorem not_coherent_along_hang_up :
    ¬ TransitionSystem.Along step Coherent
      (new.init .server 12070 (.listening 3)).socket hangUp := by
  intro along
  have last := ((along.2 _ rfl).2 _ rfl).2 _ rfl
  have sent := (last.refuses (by decide) [0x0A] none (by simp)).2
  revert sent
  decide

end LinuxSocket
end ProtobufSandbox
