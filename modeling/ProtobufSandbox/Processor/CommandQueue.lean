import ProtobufSandbox.Processor.Replies

/-!
# The command queue under two threads

The receive thread pushes commands while the main thread pops and answers them,
each taking the mutex of the queue around its access. A state of the system says
where each thread stands; a step moves one thread by one action, so that a run is
an interleaving.
-/

namespace ProtobufSandbox

/-- The threads that use the queue. -/
inductive QueueThread
  | main
  | receiver
  deriving DecidableEq

/-- Where the main thread stands: before the named action of `doWork` or
`processCommands`, or between two calls. -/
inductive MainAt
  | idle
  | doWork
  | processCommands
  | lock
  | testEmpty
  | front
  | popFront (newCmd : Command)
  | unlock (newCmd : Option Command)
  | execute (newCmd : Option Command)
  | sendData (response : Response)
  | nullDereference
  deriving DecidableEq

/-- Where the receive thread stands: before the named action of
`recvCBRoutine`, or between two calls. -/
inductive ReceiverAt
  | idle
  | lock (cmd : Command)
  | pushBack (cmd : Command)
  | unlock
  deriving DecidableEq

/-- The processor and both threads, with the commands pushed and popped so far,
those popped since `doWork` was last called, and the exchanges. -/
structure QueueState where
  processor : CommandProcessor
  commandFIFOMutex : Option QueueThread
  main : MainAt
  receiver : ReceiverAt
  pushed : List Command
  popped : List Command
  poppedInCall : List Command
  exchanges : List Exchange
  deriving DecidableEq

/-- The actions: `Start`, `Shutdown` and the call of `doWork` by the main loop,
the next action of the main thread inside a call, a call of the receive callback
and its next action, and a turn of the worker thread. -/
inductive QueueAction
  | start
  | shutdown
  | doWork
  | main
  | recvCBRoutine (strCBMsg : Bytes)
  | receiver
  | programLoop (contactRadius centerX centerY : UInt64)
  deriving DecidableEq

namespace QueueState

/-- A constructed processor, before any call. -/
def new (exitOnQuit : Bool) : QueueState where
  processor := .new exitOnQuit
  commandFIFOMutex := none
  main := .idle
  receiver := .idle
  pushed := []
  popped := []
  poppedInCall := []
  exchanges := []

/-- The next action of the main thread inside a call. -/
def mainStep (state : QueueState) : Option QueueState :=
  match state.main with
  | .idle => none
  | .doWork =>
      if state.processor.running then
        some { state with main := .processCommands }
      else some { state with main := .idle }
  | .processCommands =>
      if state.processor.running = false then some { state with main := .idle }
      else some { state with main := .lock }
  | .lock =>
      if state.commandFIFOMutex = none then
        some { state with commandFIFOMutex := some .main, main := .testEmpty }
      else none
  | .testEmpty =>
      if state.processor.cmdFIFO.isEmpty then
        some { state with main := .unlock none }
      else some { state with main := .front }
  | .front =>
      state.processor.cmdFIFO.head?.map fun newCmd =>
        { state with main := .popFront newCmd }
  | .popFront newCmd =>
      some
        { state with
          processor :=
            { state.processor with cmdFIFO := state.processor.cmdFIFO.tail }
          main := .unlock (some newCmd)
          popped := state.popped ++ [newCmd]
          poppedInCall := state.poppedInCall ++ [newCmd] }
  | .unlock newCmd =>
      some { state with commandFIFOMutex := none, main := .execute newCmd }
  | .execute none => some { state with main := .nullDereference }
  | .execute (some newCmd) =>
      let executed := state.processor.executeCommand newCmd
      some
        { state with
          processor := executed
          main := .sendData executed.response
          exchanges :=
            state.exchanges ++
              [{ command := newCmd
                 latestResult := state.processor.latestResult
                 response := executed.response }] }
  | .sendData _ => some { state with main := .idle }
  | .nullDereference => none

/-- The next action of the receive thread inside a call. -/
def receiverStep (state : QueueState) : Option QueueState :=
  match state.receiver with
  | .idle => none
  | .lock cmd =>
      if state.commandFIFOMutex = none then
        some
          { state with
            commandFIFOMutex := some .receiver
            receiver := .pushBack cmd }
      else none
  | .pushBack cmd =>
      some
        { state with
          processor := state.processor.pushBack cmd
          receiver := .unlock
          pushed := state.pushed ++ [cmd] }
  | .unlock => some { state with commandFIFOMutex := none, receiver := .idle }

/-- One action. A null command that is used ends the process. -/
def step
    (parseFromString : Bytes → Command)
    (state : QueueState)
    (action : QueueAction) : Option QueueState :=
  if state.main = .nullDereference then none
  else
    match action with
    | .start =>
        if state.main = .idle then
          some { state with processor := state.processor.start }
        else none
    | .shutdown =>
        if state.main = .idle then
          some { state with processor := state.processor.shutdown }
        else none
    | .doWork =>
        if state.main = .idle then
          some { state with main := .doWork, poppedInCall := [] }
        else none
    | .main => state.mainStep
    | .recvCBRoutine strCBMsg =>
        if state.receiver = .idle then
          some { state with receiver := .lock (parseFromString strCBMsg) }
        else none
    | .receiver => state.receiverStep
    | .programLoop contactRadius centerX centerY =>
        some
          { state with
            processor :=
              state.processor.programLoop contactRadius centerX centerY }

/-- The states after some actions. -/
def run
    (parseFromString : Bytes → Command)
    (exitOnQuit : Bool)
    (actions : List QueueAction) : Option QueueState :=
  TransitionSystem.run (step parseFromString) (new exitOnQuit) actions

/-! ## What an action can do -/

/-- The actions of the main thread inside a call. -/
inductive MainStep (state : QueueState) : QueueState → Prop
  | call
      (here : state.main = .doWork)
      (running : state.processor.running = true) :
      MainStep state { state with main := .processCommands }
  | giveUp
      (here : state.main = .doWork ∨ state.main = .processCommands)
      (stopped : state.processor.running = false) :
      MainStep state { state with main := .idle }
  | goOn
      (here : state.main = .processCommands)
      (running : state.processor.running = true) :
      MainStep state { state with main := .lock }
  | lock
      (here : state.main = .lock)
      (unlocked : state.commandFIFOMutex = none) :
      MainStep state
        { state with commandFIFOMutex := some .main, main := .testEmpty }
  | findEmpty
      (here : state.main = .testEmpty)
      (empty : state.processor.cmdFIFO = []) :
      MainStep state { state with main := .unlock none }
  | findCommand
      (here : state.main = .testEmpty)
      (nonempty : state.processor.cmdFIFO ≠ []) :
      MainStep state { state with main := .front }
  | front
      (newCmd : Command)
      (here : state.main = .front)
      (first : state.processor.cmdFIFO.head? = some newCmd) :
      MainStep state { state with main := .popFront newCmd }
  | popFront
      (newCmd : Command)
      (here : state.main = .popFront newCmd) :
      MainStep state
        { state with
          processor :=
            { state.processor with cmdFIFO := state.processor.cmdFIFO.tail }
          main := .unlock (some newCmd)
          popped := state.popped ++ [newCmd]
          poppedInCall := state.poppedInCall ++ [newCmd] }
  | unlock
      (newCmd : Option Command)
      (here : state.main = .unlock newCmd) :
      MainStep state
        { state with commandFIFOMutex := none, main := .execute newCmd }
  | useNull
      (here : state.main = .execute none) :
      MainStep state { state with main := .nullDereference }
  | execute
      (newCmd : Command)
      (here : state.main = .execute (some newCmd)) :
      MainStep state
        { state with
          processor := state.processor.executeCommand newCmd
          main := .sendData (state.processor.executeCommand newCmd).response
          exchanges :=
            state.exchanges ++
              [{ command := newCmd
                 latestResult := state.processor.latestResult
                 response := (state.processor.executeCommand newCmd).response }] }
  | sendData
      (response : Response)
      (here : state.main = .sendData response) :
      MainStep state { state with main := .idle }

/-- The main thread takes no other action. -/
theorem MainStep.of_mainStep
    {state next : QueueState}
    (stepped : state.mainStep = some next) :
    MainStep state next := by
  unfold QueueState.mainStep at stepped
  cases main : state.main with
  | idle =>
      simp only [main] at stepped
      cases stepped
  | nullDereference =>
      simp only [main] at stepped
      cases stepped
  | doWork =>
      simp only [main] at stepped
      split at stepped
      · next running =>
          cases stepped
          exact .call main running
      · next stopped =>
          cases stepped
          exact .giveUp (Or.inl main) (Bool.not_eq_true _ ▸ stopped)
  | processCommands =>
      simp only [main] at stepped
      split at stepped
      · next stopped =>
          cases stepped
          exact .giveUp (Or.inr main) stopped
      · next running =>
          cases stepped
          exact .goOn main (Bool.not_eq_false _ ▸ running)
  | lock =>
      simp only [main, Option.ite_none_right_eq_some, Option.some.injEq]
        at stepped
      obtain ⟨unlocked, rfl⟩ := stepped
      exact .lock main unlocked
  | testEmpty =>
      simp only [main] at stepped
      split at stepped
      · next empty =>
          cases stepped
          exact .findEmpty main (List.isEmpty_iff.mp empty)
      · next nonempty =>
          cases stepped
          exact .findCommand main (fun empty => nonempty (by simp [empty]))
  | front =>
      simp only [main] at stepped
      obtain ⟨newCmd, first, rfl⟩ := Option.map_eq_some_iff.mp stepped
      exact .front newCmd main first
  | popFront newCmd =>
      simp only [main] at stepped
      cases stepped
      exact .popFront newCmd main
  | unlock newCmd =>
      simp only [main] at stepped
      cases stepped
      exact .unlock newCmd main
  | execute newCmd =>
      cases newCmd with
      | none =>
          simp only [main] at stepped
          cases stepped
          exact .useNull main
      | some newCmd =>
          simp only [main] at stepped
          cases stepped
          exact .execute newCmd main
  | sendData response =>
      simp only [main] at stepped
      cases stepped
      exact .sendData response main

/-- The actions of the system. -/
inductive Step
    (parseFromString : Bytes → Command)
    (state : QueueState) : QueueAction → QueueState → Prop
  | start (idle : state.main = .idle) :
      Step parseFromString state .start
        { state with processor := state.processor.start }
  | shutdown (idle : state.main = .idle) :
      Step parseFromString state .shutdown
        { state with processor := state.processor.shutdown }
  | doWork (idle : state.main = .idle) :
      Step parseFromString state .doWork
        { state with main := .doWork, poppedInCall := [] }
  | main (next : QueueState) (stepped : MainStep state next) :
      Step parseFromString state .main next
  | recvCBRoutine (strCBMsg : Bytes) (idle : state.receiver = .idle) :
      Step parseFromString state (.recvCBRoutine strCBMsg)
        { state with receiver := .lock (parseFromString strCBMsg) }
  | lock
      (cmd : Command)
      (here : state.receiver = .lock cmd)
      (unlocked : state.commandFIFOMutex = none) :
      Step parseFromString state .receiver
        { state with
          commandFIFOMutex := some .receiver
          receiver := .pushBack cmd }
  | pushBack (cmd : Command) (here : state.receiver = .pushBack cmd) :
      Step parseFromString state .receiver
        { state with
          processor := state.processor.pushBack cmd
          receiver := .unlock
          pushed := state.pushed ++ [cmd] }
  | unlock (here : state.receiver = .unlock) :
      Step parseFromString state .receiver
        { state with commandFIFOMutex := none, receiver := .idle }
  | programLoop (contactRadius centerX centerY : UInt64) :
      Step parseFromString state
        (.programLoop contactRadius centerX centerY)
        { state with
          processor :=
            state.processor.programLoop contactRadius centerX centerY }

/-- The system takes no other action. -/
theorem Step.of_step
    {parseFromString : Bytes → Command}
    {state next : QueueState}
    {action : QueueAction}
    (stepped : state.step parseFromString action = some next) :
    Step parseFromString state action next := by
  unfold QueueState.step at stepped
  split at stepped
  · cases stepped
  · cases action with
    | main => exact .main next (.of_mainStep stepped)
    | start =>
        simp only [Option.ite_none_right_eq_some, Option.some.injEq] at stepped
        obtain ⟨idle, rfl⟩ := stepped
        exact .start idle
    | shutdown =>
        simp only [Option.ite_none_right_eq_some, Option.some.injEq] at stepped
        obtain ⟨idle, rfl⟩ := stepped
        exact .shutdown idle
    | doWork =>
        simp only [Option.ite_none_right_eq_some, Option.some.injEq] at stepped
        obtain ⟨idle, rfl⟩ := stepped
        exact .doWork idle
    | recvCBRoutine strCBMsg =>
        simp only [Option.ite_none_right_eq_some, Option.some.injEq] at stepped
        obtain ⟨idle, rfl⟩ := stepped
        exact .recvCBRoutine strCBMsg idle
    | programLoop contactRadius centerX centerY =>
        cases stepped
        exact .programLoop contactRadius centerX centerY
    | receiver =>
        simp only [QueueState.receiverStep] at stepped
        split at stepped
        · cases stepped
        · next cmd here =>
            simp only [Option.ite_none_right_eq_some, Option.some.injEq]
              at stepped
            obtain ⟨unlocked, rfl⟩ := stepped
            exact .lock cmd here unlocked
        · next cmd here =>
            cases stepped
            exact .pushBack cmd here
        · next here =>
            cases stepped
            exact .unlock here

end QueueState
end ProtobufSandbox
