import ProtobufSandbox.Server.ReplyRouting

/-!
# From the socket to the replies

A command passes through the text of the connection, the commands of a poll, the call
of the callback, the queue and the main thread. In every state of every interleaving
these hold, one behind the other, exactly the commands of the text that the server has
heard, over all its connections; the replies answer them from the first one on.
-/

namespace ProtobufSandbox

open Separator

namespace ServerState

variable {parseFromString : Bytes → Command}
variable {state next : ServerState}
variable {text : Bytes}

/-- What an action adds to the text that the server has heard. -/
def heardBy (state : ServerState) : ServerAction → Bytes
  | .updateRx outcome => state.transport.heard outcome
  | .deliver | .receiver | .control _ | .testClient | .send => []

/-- The text that a server hears in a run, over all its connections. -/
def heard
    (parseFromString : Bytes → Command)
    (socket : LinuxSocket)
    (exitOnQuit : Bool)
    (actions : List ServerAction) : Bytes :=
  TransitionSystem.emitted (step parseFromString) heardBy (new socket exitOnQuit) actions

/-- The commands that a text completes with a newline. -/
def completed
    (parseFromString : Bytes → Command)
    (text : Bytes) : List Command :=
  (terminated newline text).map parseFromString

/-- The command that the callback has parsed and not yet pushed. -/
def inCallback (queue : QueueState) : List Command :=
  match queue.receiver with
  | .lock cmd | .pushBack cmd => [cmd]
  | .idle | .unlock => []

/-- The position of the command whose reply is being sent. -/
def inReply (queue : QueueState) : List Nat :=
  (sending queue).toList.map fun _ => queue.exchanges.length - 1

/-- The commands behind the queue are those of the text, and every command that was
answered has its reply, or is about to get it. -/
structure Pipelined
    (parseFromString : Bytes → Command)
    (text : Bytes)
    (state : ServerState) : Prop where
  consistent : state.Consistent
  cmdBuffer : state.transport.cmdBuffer = residue newline text
  received :
    completed parseFromString text =
      state.queue.pushed ++ inCallback state.queue ++
        state.undelivered.map fun invocation => parseFromString invocation.command
  replied :
    state.replies.map Reply.index ++ inReply state.queue =
      List.range state.queue.exchanges.length

/-! ## What an action of the queue does to its ends -/

section Queue

variable {queue after : QueueState}
variable {action : QueueAction}

/-- The callback takes a command, hands it on, or neither. -/
theorem inCallback_step (stepped : queue.step parseFromString action = some after) :
    (∃ strCBMsg, action = .recvCBRoutine strCBMsg ∧ queue.receiver = .idle ∧
        after.pushed = queue.pushed ∧
        inCallback after = [parseFromString strCBMsg]) ∨
      ((∀ strCBMsg, action ≠ .recvCBRoutine strCBMsg) ∧
        after.pushed ++ inCallback after = queue.pushed ++ inCallback queue) := by
  cases QueueState.Step.of_step stepped with
  | recvCBRoutine strCBMsg idle => exact .inl ⟨strCBMsg, rfl, idle, rfl, rfl⟩
  | lock cmd here unlocked => exact .inr ⟨by simp, by simp [inCallback, here]⟩
  | pushBack cmd here => exact .inr ⟨by simp, by simp [inCallback, here]⟩
  | unlock here => exact .inr ⟨by simp, by simp [inCallback, here]⟩
  | main _ mainStepped =>
      refine .inr ⟨by simp, ?_⟩
      cases mainStepped <;> rfl
  | start | shutdown | doWork | programLoop => exact .inr ⟨by simp, rfl⟩

/-- Any action but the end of `sendData` keeps the exchanges, or adds the one whose
response is sent next. -/
theorem inReply_step
    (stepped : queue.step parseFromString action = some after)
    (silent : action = .main → sending queue = none)
    {replied : List Nat}
    (all : replied ++ inReply queue = List.range queue.exchanges.length) :
    replied ++ inReply after = List.range after.exchanges.length := by
  cases QueueState.Step.of_step stepped with
  | recvCBRoutine | lock | pushBack | unlock | programLoop | start | shutdown => exact all
  | doWork idle => simpa [inReply, sending, idle] using all
  | main _ mainStepped =>
      have silent := silent rfl
      rw [inReply, silent, Option.toList_none, List.map_nil, List.append_nil] at all
      cases mainStepped with
      | execute newCmd here => simp [all, inReply, sending, List.range_succ]
      | sendData response here => simp [sending, here] at silent
      | call | giveUp | goOn | lock | findEmpty | findCommand | front | popFront | unlock
      | useNull => simp [all, inReply, sending]

end Queue

/-! ## The pipeline -/

/-- A server around a listening socket without a client has heard nothing. -/
theorem pipelined_new
    {socket : LinuxSocket}
    (listening : socket.Listening)
    (noClient : socket.clientSock = invalidSocket)
    (exitOnQuit : Bool) :
    Pipelined parseFromString [] (new socket exitOnQuit) where
  consistent := consistent_new listening noClient exitOnQuit
  cmdBuffer := rfl
  received := rfl
  replied := rfl

/-- An action on the queue that is no call of the callback and no end of `sendData`. -/
theorem Pipelined.queueStep
    {queue : QueueState}
    {action : QueueAction}
    (pipelined : Pipelined parseFromString text state)
    (stepped : state.queue.step parseFromString action = some queue)
    (notCallback : ∀ strCBMsg, action ≠ .recvCBRoutine strCBMsg)
    (silent : action = .main → sending state.queue = none)
    {origins : List (List Int)}
    (consistent : ({ state with queue := queue, origins := origins } :
      ServerState).Consistent) :
    Pipelined parseFromString text { state with queue := queue, origins := origins } := by
  refine ⟨consistent, pipelined.cmdBuffer, ?_, inReply_step stepped silent pipelined.replied⟩
  rcases inCallback_step stepped with ⟨strCBMsg, same, -⟩ | ⟨-, same⟩
  · exact absurd same (notCallback strCBMsg)
  · rw [same]
    exact pipelined.received

/-- The next command of the poll goes to the callback. -/
theorem Pipelined.deliver
    {queue : QueueState}
    {invocation : Invocation}
    {rest : List Invocation}
    (pipelined : Pipelined parseFromString text state)
    (first : state.undelivered = invocation :: rest)
    (stepped : state.queue.step parseFromString
      (.recvCBRoutine invocation.command) = some queue)
    (consistent : ({ state with queue := queue, undelivered := rest } :
      ServerState).Consistent) :
    Pipelined parseFromString text { state with queue := queue, undelivered := rest } := by
  refine ⟨consistent, pipelined.cmdBuffer, ?_,
    inReply_step stepped (fun same => by cases same) pipelined.replied⟩
  have received := pipelined.received
  rcases inCallback_step stepped with
    ⟨strCBMsg, same, idle, pushed, taken⟩ | ⟨notCallback, -⟩
  · obtain rfl := QueueAction.recvCBRoutine.inj same
    have before : inCallback state.queue = [] := by simp [inCallback, idle]
    rw [first, before, List.append_nil] at received
    rw [received, pushed, taken, List.append_assoc]
    rfl
  · exact absurd rfl (notCallback invocation.command)

/-- A poll: the commands that the text has completed are to be passed on. -/
theorem Pipelined.updateRx
    {outcome : RxOutcome}
    {result : RxResult}
    (pipelined : Pipelined parseFromString text state)
    (passedOn : state.undelivered = [])
    (updated : state.transport.updateRx outcome = some result)
    {accepted : List Int}
    (consistent : ({ state with
      transport := result.transport
      undelivered := result.invocations
      accepted := accepted } : ServerState).Consistent) :
    Pipelined parseFromString (text ++ state.transport.heard outcome)
      { state with
        transport := result.transport
        undelivered := result.invocations
        accepted := accepted } := by
  obtain ⟨other, same, advances⟩ := pipelined.consistent.framer.updateRx outcome
  obtain rfl : result = other := Option.some.inj (updated.symm.trans same)
  have split := Separator.append newline text (state.transport.heard outcome)
  rw [← pipelined.cmdBuffer] at split
  have received := pipelined.received
  rw [passedOn, List.map_nil, List.append_nil] at received
  refine ⟨consistent, advances.cmdBuffer.trans split.2.symm, ?_, pipelined.replied⟩
  have commands : (result.invocations.map fun invocation => parseFromString invocation.command) =
      (terminated newline (state.transport.cmdBuffer ++ state.transport.heard outcome)).map
        parseFromString := by
    rw [advances.invocations, ← map_command_numbered (state.transport.invokeCnt + 1)
      (terminated newline _), List.map_map, map_command_numbered]
    rfl
  rw [completed, split.1, List.map_append, ← completed, received, commands]

/-- The end of `sendData` is the reply to the last exchange. -/
theorem Pipelined.finishSend
    {response : Response}
    {descriptor : Option Int}
    (pipelined : Pipelined parseFromString text state)
    (sends : state.queue.main = .sendData response)
    (finished : state.finishSend parseFromString descriptor = some next)
    (consistent : next.Consistent) :
    Pipelined parseFromString text next := by
  obtain ⟨queue, stepped, rfl⟩ := Option.map_eq_some_iff.mp finished
  have replied := pipelined.replied
  simp only [inReply, sending_eq_some.mpr sends, Option.toList_some, List.map_cons,
    List.map_nil] at replied
  refine ⟨consistent, pipelined.cmdBuffer, ?_, ?_⟩
  · rcases inCallback_step stepped with ⟨strCBMsg, same, -⟩ | ⟨-, same⟩
    · cases same
    · exact same ▸ pipelined.received
  · cases QueueState.Step.of_step stepped with
    | main _ mainStepped =>
        cases mainStepped with
        | sendData response here => simpa [inReply, sending] using replied
        | giveUp here => rcases here with here | here <;> rw [sends] at here <;> cases here
        | call here | goOn here | lock here | findEmpty here | findCommand here
        | front _ here | popFront _ here | unlock _ here | useNull here | execute _ here =>
            rw [sends] at here
            cases here

/-- Every action keeps the pipeline. -/
theorem Pipelined.step
    {action : ServerAction}
    (pipelined : Pipelined parseFromString text state)
    (stepped : state.step parseFromString action = some next) :
    Pipelined parseFromString (text ++ state.heardBy action) next := by
  have consistent := pipelined.consistent.step stepped
  unfold ServerState.step at stepped
  cases action with
  | updateRx outcome =>
      simp only [Option.ite_none_right_eq_some, Option.map_eq_some_iff] at stepped
      obtain ⟨⟨passedOn, -⟩, result, updated, rfl⟩ := stepped
      exact pipelined.updateRx passedOn updated consistent
  | deliver =>
      rw [heardBy, List.append_nil]
      dsimp only at stepped
      split at stepped
      · cases stepped
      · next first =>
          obtain ⟨queue, queueStepped, rfl⟩ := Option.map_eq_some_iff.mp stepped
          exact pipelined.deliver first queueStepped consistent
  | receiver =>
      rw [heardBy, List.append_nil]
      obtain ⟨queue, queueStepped, rfl⟩ := Option.map_eq_some_iff.mp stepped
      exact pipelined.queueStep queueStepped (by simp) (by simp) consistent
  | control action =>
      rw [heardBy, List.append_nil]
      simp only [Option.ite_none_right_eq_some, Option.map_eq_some_iff] at stepped
      obtain ⟨isControl, queue, queueStepped, rfl⟩ := stepped
      refine pipelined.queueStep queueStepped ?_ ?_ consistent
      · rintro strCBMsg rfl
        exact isControl
      · rintro rfl
        exact isControl
  | testClient =>
      rw [heardBy, List.append_nil]
      obtain ⟨response, sends, stepped⟩ := Option.bind_eq_some_iff.mp stepped
      split at stepped
      · cases stepped
      · split at stepped
        · exact pipelined.finishSend (sending_eq_some.mp sends) stepped consistent
        · cases stepped
          exact ⟨consistent, pipelined.cmdBuffer, pipelined.received, pipelined.replied⟩
  | send =>
      rw [heardBy, List.append_nil]
      obtain ⟨response, sends, stepped⟩ := Option.bind_eq_some_iff.mp stepped
      simp only [Option.ite_none_right_eq_some] at stepped
      exact pipelined.finishSend (sending_eq_some.mp sends) stepped.2 consistent

/-- Every run keeps the pipeline, for the text that it has heard. -/
theorem pipelined_run
    {port : Int}
    {outcome : InitOutcome}
    {exitOnQuit : Bool}
    {actions : List ServerAction}
    (initialised : (LinuxSocket.new.init .server port outcome).returns = true)
    (performed : run parseFromString (LinuxSocket.new.init .server port outcome).socket
      exitOnQuit actions = some state) :
    Pipelined parseFromString
      (heard parseFromString (LinuxSocket.new.init .server port outcome).socket exitOnQuit
        actions) state :=
  TransitionSystem.run_preserves_emitted
    (fun _ _ _ _ pipelined stepped => Pipelined.step pipelined stepped)
    (pipelined_new (LinuxSocket.init_server initialised).1
      (clientSock_init_server port outcome) exitOnQuit)
    performed

/-- In every state of every interleaving, the commands of the text heard so far are, in
order and each once, those answered, those popped or queued, the one in the callback
and those of the last poll still to be passed on. The answered ones have been replied to
in order, but for the last one while its reply is being sent; at rest every command of
the text has exactly one reply. -/
theorem commands_reach_replies
    {port : Int}
    {outcome : InitOutcome}
    {exitOnQuit : Bool}
    {actions : List ServerAction}
    (initialised : (LinuxSocket.new.init .server port outcome).returns = true)
    (performed : run parseFromString (LinuxSocket.new.init .server port outcome).socket
      exitOnQuit actions = some state) :
    ∃ commands, commands = completed parseFromString (heard parseFromString
          (LinuxSocket.new.init .server port outcome).socket exitOnQuit actions) ∧
      commands =
        state.queue.exchanges.map Exchange.command ++
          (state.queue.pending ++ (state.queue.processor.cmdFIFO ++
            (inCallback state.queue ++ state.undelivered.map fun invocation =>
              parseFromString invocation.command))) ∧
      state.replies.map Reply.index ++ inReply state.queue =
        List.range state.queue.exchanges.length ∧
      (state.undelivered = [] → state.queue.receiver = .idle → state.queue.main = .idle →
        state.queue.processor.cmdFIFO = [] →
          state.queue.exchanges.map Exchange.command = commands ∧
            state.replies.map Reply.index = List.range commands.length) := by
  have pipelined := pipelined_run initialised performed
  have conserved := pipelined.consistent.queue.conserved
  have answered := pipelined.consistent.answered.commands
  have received := pipelined.received
  rw [← conserved, ← answered, List.append_assoc, List.append_assoc, List.append_assoc]
    at received
  refine ⟨_, rfl, received, pipelined.replied, ?_⟩
  intro passedOn receiverIdle mainIdle empty
  have all := pipelined.replied
  simp only [passedOn, List.map_nil, inCallback, receiverIdle, empty, QueueState.pending,
    mainIdle, List.append_nil] at received
  simp only [inReply, sending, mainIdle, Option.toList_none, List.map_nil,
    List.append_nil] at all
  rw [received, List.length_map]
  exact ⟨rfl, all⟩

/-- Two status commands; the second is cut between two polls, and arrives while the main
thread holds the mutex to answer the first. -/
def twoCommands : List ServerAction :=
  [.control .start,
    .updateRx (polled 5 .wouldBlock),
    .updateRx (polled (-1)
      (.data
        ⟨(Session.statusCommand 1).serializeToString ++ [newline, 0x08, 0x02, 0x12],
          by decide, by decide⟩)),
    .deliver, .receiver, .receiver, .receiver,
    .control .doWork, .control .main, .control .main, .control .main,
    .updateRx (polled (-1)
      (.data
        ⟨0x06 :: ascii ['s', 't', 'a', 't', 'u', 's'] ++ [newline], by decide, by decide⟩)),
    .deliver, .control .main, .control .main, .control .main, .control .main, .receiver,
    .control .main, .receiver, .testClient, .receiver, .send] ++ answerOne

/-- Both are answered in order. -/
theorem commands_reach_replies_two :
    ∃ state,
      run parseFields Reception.listeningSocket true twoCommands = some state ∧
        state.queue.exchanges.map Exchange.command =
          [Session.statusCommand 1, Session.statusCommand 2] ∧
        state.replies.map Reply.index = [0, 1] := by
  -- What the last state is asked for is evaluated once, so that the state stays a name.
  have rests : (run parseFields Reception.listeningSocket true twoCommands).map
      (fun state => (state.undelivered, state.queue.receiver, state.queue.main,
        state.queue.processor.cmdFIFO)) = some ([], .idle, .idle, []) := rfl
  obtain ⟨state, performed, atRest⟩ := Option.map_eq_some_iff.mp rests
  simp only [Prod.mk.injEq] at atRest
  obtain ⟨passedOn, receiverIdle, mainIdle, empty⟩ := atRest
  have initialised : (LinuxSocket.new.init .server 12070 (.listening 3)).returns = true := rfl
  obtain ⟨commands, all, -, -, replied⟩ := commands_reach_replies initialised performed
  have both : commands = [Session.statusCommand 1, Session.statusCommand 2] := all
  rw [both] at replied
  exact ⟨state, performed, replied passedOn receiverIdle mainIdle empty⟩

end ServerState
end ProtobufSandbox
