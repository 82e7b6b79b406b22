import ProtobufSandbox.Processor.QueueRefinement
import ProtobufSandbox.Protocol.RequestLeg
import ProtobufSandbox.Transport.Isolation

/-!
# Where replies go

The server is the command queue together with the transport that fills it: the
receive thread polls the socket and passes the commands it completes to the
callback, while the main thread answers commands on whatever descriptor is in
`m_ClientSock` when it sends. Neither the queue nor the response says which
client a command came from, so a reply goes to the client accepted last.

A poll writes `m_ClientSock` at most once, in its accept, and touches nothing
else the main thread reads; it is one action here, and its calls of the callback
are further actions. The server is followed until it is shut down.
-/

namespace ProtobufSandbox

/-- A response that was handed to the socket: the position of its command among
the commands answered, the descriptor it was sent on, and the descriptors
accepted before. -/
structure Reply where
  index : Nat
  descriptor : Option Int
  accepted : List Int
  deriving DecidableEq

namespace Reply

/-- The reply went to the client accepted last, or to none. -/
def ToLatest (reply : Reply) : Prop :=
  reply.descriptor = none ∨ reply.descriptor = reply.accepted.getLast?

/-- The reply to a command received while `received` were the clients accepted
went to the client it was received from, or to none. -/
def Routed (received : List Int) (reply : Reply) : Prop :=
  reply.descriptor = none ∨
    (received = reply.accepted ∧ reply.descriptor = received.getLast?)

instance (received : List Int) (reply : Reply) :
    Decidable (reply.Routed received) :=
  inferInstanceAs (Decidable (_ ∨ _))

end Reply

/-- The queue and the transport, with the commands of the last poll that are not
yet passed to the callback, whether the main thread is between the test and the
`send` of `sendData`, the descriptors accepted, those accepted when each pushed
command was received, and the replies. -/
structure ServerState where
  queue : QueueState
  transport : SocketTransport
  undelivered : List Invocation
  sendTested : Bool
  accepted : List Int
  origins : List (List Int)
  replies : List Reply

/-- The actions of the server: a poll, the call of the callback for its next
command, and the next action inside it; any other action on the queue; and the
test and the `send` of `sendData`. -/
inductive ServerAction
  | updateRx (outcome : RxOutcome)
  | deliver
  | receiver
  | control (action : QueueAction)
  | testClient
  | send

/-- The descriptors that `accept` returned. -/
def acceptedIn (calls : List SysCall) : List Int :=
  calls.filterMap fun
    | .accept descriptor => some descriptor
    | .socket _ | .close _ | .send _ _ _ => none

namespace ServerState

/-- A server around an initialised socket. -/
def new (socket : LinuxSocket) (exitOnQuit : Bool) : ServerState where
  queue := .new exitOnQuit
  transport := .new socket
  undelivered := []
  sendTested := false
  accepted := []
  origins := []
  replies := []

/-- The response that the main thread is sending. -/
def sending (queue : QueueState) : Option Response :=
  match queue.main with
  | .sendData response => some response
  | .idle | .doWork | .processCommands | .lock | .testEmpty | .front
  | .popFront _ | .unlock _ | .execute _ | .nullDereference => none

theorem sending_eq_some
    {queue : QueueState}
    {response : Response} :
    sending queue = some response ↔ queue.main = .sendData response := by
  unfold sending
  cases queue.main <;> simp

/-- The actions on the queue that are not part of a poll or of `sendData`. -/
def IsControl (queue : QueueState) : QueueAction → Prop
  | .recvCBRoutine _ | .receiver | .shutdown => False
  | .main => sending queue = none
  | .start | .doWork | .programLoop _ _ _ => True

instance (queue : QueueState) :
    ∀ action, Decidable (IsControl queue action)
  | .recvCBRoutine _ | .receiver | .shutdown =>
      inferInstanceAs (Decidable False)
  | .main => inferInstanceAs (Decidable (sending queue = none))
  | .start | .doWork | .programLoop _ _ _ => inferInstanceAs (Decidable True)

/-- The end of `sendData`, with the descriptor that was sent on. -/
def finishSend
    (parseFromString : Bytes → Command)
    (state : ServerState)
    (descriptor : Option Int) : Option ServerState :=
  (state.queue.step parseFromString .main).map fun queue =>
    { state with
      queue := queue
      sendTested := false
      replies :=
        state.replies ++
          [{ index := state.queue.exchanges.length - 1
             descriptor := descriptor
             accepted := state.accepted }] }

/-- The descriptor a `send` reaches: none if `m_ClientSock` is invalid. -/
def clientDescriptor (socket : LinuxSocket) : Option Int :=
  if socket.clientSock = invalidSocket then none else some socket.clientSock

/-- One action. -/
def step
    (parseFromString : Bytes → Command)
    (state : ServerState) : ServerAction → Option ServerState
  | .updateRx outcome =>
      -- The receive thread polls again when it has passed on all commands.
      if state.undelivered = [] ∧ state.queue.receiver = .idle ∧
          state.queue.main ≠ .nullDereference then
        (state.transport.updateRx outcome).map fun result =>
          { state with
            transport := result.transport
            undelivered := result.invocations
            accepted := state.accepted ++ acceptedIn result.calls }
      else none
  | .deliver =>
      match state.undelivered with
      | [] => none
      | invocation :: rest =>
          (state.queue.step parseFromString
            (.recvCBRoutine invocation.command)).map fun queue =>
              { state with queue := queue, undelivered := rest }
  | .receiver =>
      (state.queue.step parseFromString .receiver).map fun queue =>
        { state with
          queue := queue
          origins :=
            match state.queue.receiver with
            | .pushBack _ => state.origins ++ [state.accepted]
            | .idle | .lock _ | .unlock => state.origins }
  | .control action =>
      if IsControl state.queue action then
        (state.queue.step parseFromString action).map fun queue =>
          { state with queue := queue }
      else none
  | .testClient =>
      (sending state.queue).bind fun response =>
        if state.sendTested then none
        else if response.serializeToString.length = 0 ∨
            state.transport.socket.clientSock = invalidSocket then
          state.finishSend parseFromString none
        else some { state with sendTested := true }
  | .send =>
      (sending state.queue).bind fun _ =>
        if state.sendTested then
          state.finishSend parseFromString
            (clientDescriptor state.transport.socket)
        else none

/-- The states after some actions. -/
def run
    (parseFromString : Bytes → Command)
    (socket : LinuxSocket)
    (exitOnQuit : Bool)
    (actions : List ServerAction) : Option ServerState :=
  TransitionSystem.run (step parseFromString) (new socket exitOnQuit) actions

/-! ## The descriptor of the client -/

/-- In server mode a reset makes no system calls and keeps the descriptor. -/
theorem resetConnection_client
    {socket : LinuxSocket}
    (listening : socket.Listening)
    (outcome : ReconnectOutcome) :
    (socket.resetConnection outcome).calls = [] ∧
      (socket.resetConnection outcome).socket.clientSock =
        socket.clientSock := by
  unfold LinuxSocket.resetConnection
  rw [listening.mode]
  dsimp only
  split <;> exact ⟨rfl, rfl⟩

/-- `m_ClientSock` holds the descriptor accepted last, or none. -/
def ClientIsLatest (socket : LinuxSocket) (accepted : List Int) : Prop :=
  socket.clientSock ≠ invalidSocket →
    accepted.getLast? = some socket.clientSock

/-- After an accept, `m_ClientSock` holds what it returned. -/
theorem clientIsLatest_listenForClient
    {socket : LinuxSocket}
    {accepted : List Int}
    (listening : socket.Listening)
    (answer : Int) :
    ClientIsLatest (socket.listenForClient answer).socket
      (accepted ++ acceptedIn (socket.listenForClient answer).calls) := by
  unfold LinuxSocket.listenForClient ClientIsLatest
  rw [if_pos ⟨listening.mode, listening.valid⟩]
  by_cases obtained : answer ≠ invalidSocket
  · rw [if_pos obtained]
    intro _
    simp [acceptedIn]
  · rw [if_neg obtained]
    exact fun valid => absurd valid obtained

/-- A poll keeps the descriptor accepted last in `m_ClientSock`. -/
theorem clientIsLatest_updateRx
    {transport : SocketTransport}
    {outcome : RxOutcome}
    {result : RxResult}
    {accepted : List Int}
    (listening : transport.socket.Listening)
    (latest : ClientIsLatest transport.socket accepted)
    (updated : transport.updateRx outcome = some result) :
    ClientIsLatest result.transport.socket
      (accepted ++ acceptedIn result.calls) := by
  have stepped := SocketTransport.socketStep_of_updateRx updated
  generalize result.transport.socket = socket at stepped ⊢
  generalize result.calls = calls at stepped ⊢
  cases stepped with
  | accept between => exact clientIsLatest_listenForClient listening _
  | goOn connectionState elsewhere =>
      simpa [ClientIsLatest, acceptedIn] using latest
  | reset connectionState elsewhere =>
      have reset :=
        resetConnection_client (listening.withState connectionState)
          outcome.reconnect
      unfold ClientIsLatest at *
      rw [reset.1, reset.2]
      simpa [acceptedIn] using latest

/-! ## The invariant -/

/-- A reply answers the command at its position, went to the client accepted
last or to none, and that client was accepted no earlier than the one the command
came from. -/
def ReplyRecorded (state : ServerState) (reply : Reply) : Prop :=
  ∃ exchange received,
    state.queue.exchanges[reply.index]? = some exchange ∧
      state.queue.pushed[reply.index]? = some exchange.command ∧
      state.origins[reply.index]? = some received ∧
      received <+: reply.accepted ∧ reply.ToLatest

/-- The invariant of the server. -/
structure Consistent (state : ServerState) : Prop where
  framer : state.transport.Framer
  listening : state.transport.socket.Listening
  latest : ClientIsLatest state.transport.socket state.accepted
  queue : state.queue.Consistent
  answered : state.queue.Answered
  origins_length : state.origins.length = state.queue.pushed.length
  origins_prefix : ∀ received ∈ state.origins, received <+: state.accepted
  replies : ∀ reply ∈ state.replies, state.ReplyRecorded reply

/-- A server around a listening socket without a client. -/
theorem consistent_new
    {socket : LinuxSocket}
    (listening : socket.Listening)
    (noClient : socket.clientSock = invalidSocket)
    (exitOnQuit : Bool) :
    (new socket exitOnQuit).Consistent where
  framer := SocketTransport.framer_new socket
  listening := listening
  latest := fun valid => absurd noClient valid
  queue := QueueState.consistent_new exitOnQuit
  answered := QueueState.answered_new exitOnQuit
  origins_length := rfl
  origins_prefix := by simp [new]
  replies := by simp [new]

/-- An element of a list is still there when the list has grown. -/
theorem getElem?_of_initial
    {first second : List α}
    {index : Nat}
    {value : α}
    (grown : first <+: second)
    (present : first[index]? = some value) :
    second[index]? = some value := by
  obtain ⟨inRange, same⟩ := List.getElem?_eq_some_iff.mp present
  rw [List.prefix_iff_getElem?.mp grown index inRange, same]

/-- What is recorded of a reply stays recorded. -/
theorem ReplyRecorded.of_initial
    {state next : ServerState}
    {reply : Reply}
    (recorded : state.ReplyRecorded reply)
    (exchanges : state.queue.exchanges <+: next.queue.exchanges)
    (pushed : state.queue.pushed <+: next.queue.pushed)
    (origins : state.origins <+: next.origins) :
    next.ReplyRecorded reply := by
  obtain ⟨exchange, received, isExchange, isPushed, isOrigin, rest⟩ := recorded
  exact ⟨exchange, received, getElem?_of_initial exchanges isExchange,
    getElem?_of_initial pushed isPushed, getElem?_of_initial origins isOrigin,
    rest⟩

/-- No other action than the receive thread's pushes. -/
theorem pushed_eq_of_ne
    {parseFromString : Bytes → Command}
    {queue next : QueueState}
    {action : QueueAction}
    (stepped : queue.step parseFromString action = some next)
    (notReceiver : action ≠ .receiver) :
    next.pushed = queue.pushed := by
  rcases QueueState.pushed_step stepped with ⟨same, _⟩ | ⟨_, isReceiver, _⟩
  · exact same
  · exact absurd isReceiver notReceiver

/-- An action on the queue that pushes nothing keeps the invariant. -/
theorem Consistent.queueStep
    {parseFromString : Bytes → Command}
    {state : ServerState}
    {queue : QueueState}
    {action : QueueAction}
    (consistent : state.Consistent)
    (stepped : state.queue.step parseFromString action = some queue)
    (samePushed : queue.pushed = state.queue.pushed)
    (undelivered : List Invocation)
    (sendTested : Bool) :
    ({ state with
        queue := queue
        undelivered := undelivered
        sendTested := sendTested } : ServerState).Consistent := by
  refine ⟨consistent.framer, consistent.listening, consistent.latest,
    consistent.queue.step stepped, consistent.answered.step stepped, ?_,
    consistent.origins_prefix, ?_⟩
  · exact consistent.origins_length.trans (congrArg List.length samePushed.symm)
  · intro reply present
    exact (consistent.replies reply present).of_initial
      (QueueState.exchanges_step stepped) (samePushed ▸ List.prefix_rfl)
      List.prefix_rfl

/-- An action of the receive thread keeps the invariant: with the command it
pushes, it records the clients accepted by then. -/
theorem Consistent.receiverStep
    {parseFromString : Bytes → Command}
    {state : ServerState}
    {queue : QueueState}
    (consistent : state.Consistent)
    (stepped : state.queue.step parseFromString .receiver = some queue) :
    ({ state with
        queue := queue
        origins :=
          match state.queue.receiver with
          | .pushBack _ => state.origins ++ [state.accepted]
          | .idle | .lock _ | .unlock => state.origins } :
      ServerState).Consistent := by
  rcases QueueState.pushed_step stepped with
    ⟨samePushed, notPushing⟩ | ⟨cmd, _, pushing, grown⟩
  · have kept :=
      consistent.queueStep stepped samePushed state.undelivered state.sendTested
    cases here : state.queue.receiver with
    | pushBack cmd => exact absurd here (notPushing rfl cmd)
    | idle => exact kept
    | lock cmd => exact kept
    | unlock => exact kept
  · rw [pushing]
    refine ⟨consistent.framer, consistent.listening, consistent.latest,
      consistent.queue.step stepped, consistent.answered.step stepped, ?_, ?_, ?_⟩
    · simp [grown, consistent.origins_length]
    · intro received present
      rcases List.mem_append.mp present with earlier | new
      · exact consistent.origins_prefix received earlier
      · rw [List.mem_singleton.mp new]
    · intro reply present
      exact (consistent.replies reply present).of_initial
        (QueueState.exchanges_step stepped) (grown ▸ List.prefix_append _ _)
        (List.prefix_append _ _)

/-- The response being sent answers the command at the last position, which was
received no later than now. -/
theorem Consistent.sending
    {state : ServerState}
    {response : Response}
    {descriptor : Option Int}
    (consistent : state.Consistent)
    (sends : state.queue.main = .sendData response)
    (toLatest :
      descriptor = none ∨ descriptor = state.accepted.getLast?) :
    state.ReplyRecorded
      { index := state.queue.exchanges.length - 1
        descriptor := descriptor
        accepted := state.accepted } := by
  have last := consistent.answered.sending response sends
  obtain ⟨exchange, isLast, _⟩ := Option.map_eq_some_iff.mp last
  rw [List.getLast?_eq_getElem?] at isLast
  have answers :
      state.queue.exchanges.map Exchange.command <+: state.queue.pushed := by
    rw [← consistent.queue.conserved, ← consistent.answered.commands,
      List.append_assoc]
    exact List.prefix_append _ _
  have isPushed :
      state.queue.pushed[state.queue.exchanges.length - 1]? =
        some exchange.command :=
    getElem?_of_initial answers (by rw [List.getElem?_map, isLast]; rfl)
  obtain ⟨inRange, _⟩ := List.getElem?_eq_some_iff.mp isPushed
  rw [← consistent.origins_length] at inRange
  have isOrigin := List.getElem?_eq_getElem inRange
  exact ⟨exchange, _, isLast, isPushed, isOrigin,
    consistent.origins_prefix _ (List.getElem_mem inRange), toLatest⟩

/-- The end of `sendData` keeps the invariant. -/
theorem Consistent.finishSend
    {parseFromString : Bytes → Command}
    {state next : ServerState}
    {response : Response}
    {descriptor : Option Int}
    (consistent : state.Consistent)
    (sends : state.queue.main = .sendData response)
    (toLatest :
      descriptor = none ∨ descriptor = state.accepted.getLast?)
    (finished : state.finishSend parseFromString descriptor = some next) :
    next.Consistent := by
  unfold ServerState.finishSend at finished
  obtain ⟨queue, stepped, rfl⟩ := Option.map_eq_some_iff.mp finished
  have samePushed := pushed_eq_of_ne stepped (by simp)
  have kept :=
    consistent.queueStep stepped samePushed state.undelivered false
  have recorded := consistent.sending sends toLatest
  refine ⟨kept.framer, kept.listening, kept.latest, kept.queue, kept.answered,
    kept.origins_length, kept.origins_prefix, ?_⟩
  intro reply present
  rcases List.mem_append.mp present with earlier | new
  · exact kept.replies reply earlier
  · rw [List.mem_singleton.mp new]
    exact recorded.of_initial (QueueState.exchanges_step stepped)
      (samePushed ▸ List.prefix_rfl) List.prefix_rfl

/-- Every action keeps the invariant. -/
theorem Consistent.step
    {parseFromString : Bytes → Command}
    {state next : ServerState}
    {action : ServerAction}
    (consistent : state.Consistent)
    (stepped : state.step parseFromString action = some next) :
    next.Consistent := by
  unfold ServerState.step at stepped
  cases action with
  | updateRx outcome =>
      simp only [Option.ite_none_right_eq_some, Option.map_eq_some_iff]
        at stepped
      obtain ⟨_, result, updated, rfl⟩ := stepped
      obtain ⟨other, same, advances⟩ :=
        consistent.framer.updateRx outcome
      obtain rfl : result = other := Option.some.inj (updated.symm.trans same)
      refine ⟨advances.framer, ?_, ?_, consistent.queue, consistent.answered,
        consistent.origins_length, ?_, consistent.replies⟩
      · exact SocketTransport.listening_updateRx consistent.listening updated
      · exact clientIsLatest_updateRx consistent.listening consistent.latest
          updated
      · intro received present
        exact (consistent.origins_prefix received present).trans
          (List.prefix_append _ _)
  | deliver =>
      dsimp only at stepped
      split at stepped
      · cases stepped
      · obtain ⟨queue, queueStepped, rfl⟩ := Option.map_eq_some_iff.mp stepped
        exact consistent.queueStep queueStepped
          (pushed_eq_of_ne queueStepped (by simp)) _ _
  | receiver =>
      obtain ⟨queue, queueStepped, rfl⟩ := Option.map_eq_some_iff.mp stepped
      exact consistent.receiverStep queueStepped
  | control action =>
      simp only [Option.ite_none_right_eq_some, Option.map_eq_some_iff]
        at stepped
      obtain ⟨isControl, queue, queueStepped, rfl⟩ := stepped
      refine consistent.queueStep queueStepped
        (pushed_eq_of_ne queueStepped ?_) _ _
      rintro rfl
      exact isControl
  | testClient =>
      obtain ⟨response, sends, stepped⟩ := Option.bind_eq_some_iff.mp stepped
      split at stepped
      · cases stepped
      · split at stepped
        · exact consistent.finishSend (sending_eq_some.mp sends) (Or.inl rfl)
            stepped
        · cases stepped
          exact ⟨consistent.framer, consistent.listening, consistent.latest,
            consistent.queue, consistent.answered, consistent.origins_length,
            consistent.origins_prefix, consistent.replies⟩
  | send =>
      obtain ⟨response, sends, stepped⟩ := Option.bind_eq_some_iff.mp stepped
      simp only [Option.ite_none_right_eq_some] at stepped
      refine consistent.finishSend (sending_eq_some.mp sends) ?_ stepped.2
      unfold clientDescriptor
      split
      · exact Or.inl rfl
      · next valid => exact Or.inr (consistent.latest valid).symm

/-- `init` in server mode accepts no client. -/
theorem clientSock_init_server (port : Int) (outcome : InitOutcome) :
    (LinuxSocket.new.init .server port outcome).socket.clientSock =
      invalidSocket := by
  unfold LinuxSocket.init
  dsimp only
  repeat' split
  all_goals rfl

/-- Every run keeps the invariant. -/
theorem consistent_run
    {parseFromString : Bytes → Command}
    {port : Int}
    {outcome : InitOutcome}
    {exitOnQuit : Bool}
    {actions : List ServerAction}
    {state : ServerState}
    (initialised :
      (LinuxSocket.new.init .server port outcome).returns = true)
    (performed :
      run parseFromString (LinuxSocket.new.init .server port outcome).socket
        exitOnQuit actions = some state) :
    state.Consistent :=
  TransitionSystem.run_preserves
    (fun _ _ _ consistent stepped => Consistent.step consistent stepped)
    (consistent_new (LinuxSocket.init_server initialised).1
      (clientSock_init_server port outcome) exitOnQuit)
    performed

/-- In every interleaving, a reply goes to the client accepted last before it is
sent, or to none: to the client its command was received from, or to none, if no
other client was accepted in between. -/
theorem reply_goes_to_latest_client
    {parseFromString : Bytes → Command}
    {port : Int}
    {outcome : InitOutcome}
    {exitOnQuit : Bool}
    {actions : List ServerAction}
    {state : ServerState}
    (initialised :
      (LinuxSocket.new.init .server port outcome).returns = true)
    (performed :
      run parseFromString (LinuxSocket.new.init .server port outcome).socket
        exitOnQuit actions = some state) :
    ∀ reply ∈ state.replies, ∃ exchange received,
      state.queue.exchanges[reply.index]? = some exchange ∧
        state.queue.pushed[reply.index]? = some exchange.command ∧
        state.origins[reply.index]? = some received ∧
        received <+: reply.accepted ∧
        reply.ToLatest ∧
        (received.length = reply.accepted.length → reply.Routed received) := by
  intro reply present
  obtain ⟨exchange, received, isExchange, isPushed, isOrigin, grown, toLatest⟩ :=
    (consistent_run initialised performed).replies reply present
  refine ⟨exchange, received, isExchange, isPushed, isOrigin, grown, toLatest,
    fun noneBetween => ?_⟩
  have same : received = reply.accepted := grown.eq_of_length noneBetween
  rcases toLatest with none | latest
  · exact Or.inl none
  · exact Or.inr ⟨same, same ▸ latest⟩

/-- A client accepted as descriptor 5 whose status command is queued. -/
def commandQueued : List ServerAction :=
  [.control .start,
    .updateRx (polled 5 .wouldBlock),
    .updateRx (polled (-1)
      (.data
        ⟨(Session.statusCommand 1).serializeToString ++ [newline],
          by decide, by decide⟩)),
    .deliver, .receiver, .receiver, .receiver]

/-- A call of `doWork` that answers a command. -/
def answerOne : List ServerAction :=
  .control .doWork :: List.replicate 8 (.control .main) ++ [.testClient, .send]

/-- The client leaves and another is accepted as descriptor 6 before its command
is answered: the reply goes to the other. -/
theorem reply_goes_to_later_client :
    ∃ state,
      run parseFields Reception.listeningSocket true
          (commandQueued ++
            [.updateRx (polled (-1) .closed), .updateRx (polled 6 .wouldBlock)] ++
            answerOne) = some state ∧
        state.origins = [[5]] ∧
        state.replies = [{ index := 0, descriptor := some 6, accepted := [5, 6] }] ∧
        ¬ ∀ reply ∈ state.replies, ∀ received,
          state.origins[reply.index]? = some received → reply.Routed received := by
  refine ⟨_, rfl, rfl, rfl, fun claim => ?_⟩
  exact absurd (claim _ List.mem_cons_self [5] rfl) (by decide)

/-- A command answered before another client is accepted: the reply goes to the
client it was received from. -/
theorem reply_goes_to_latest_client_own :
    ∃ state,
      run parseFields Reception.listeningSocket true
          (commandQueued ++ answerOne) = some state ∧
        ∀ reply ∈ state.replies, reply.ToLatest := by
  refine ⟨_, rfl, fun reply present => ?_⟩
  obtain ⟨_, _, _, _, _, _, toLatest, _⟩ :=
    @reply_goes_to_latest_client parseFields 12070 (.listening 3) true
      (commandQueued ++ answerOne) _ rfl rfl reply present
  exact toLatest

end ServerState
end ProtobufSandbox
