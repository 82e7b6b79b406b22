import ProtobufSandbox.Processor.QueueSafety

/-!
# The threads answer like a session

Popping a command and answering it are many actions of the main thread, between
which the receive thread may push. Counting a command as popped when it is
answered turns every interleaving into a session, in which both happen at once.
-/

namespace ProtobufSandbox
namespace QueueState

variable {parseFromString : Bytes → Command}
variable {state next : QueueState}
variable {action : QueueAction}

/-- The command that was popped and is not answered yet. -/
def pending (state : QueueState) : List Command :=
  match state.main with
  | .unlock newCmd | .execute newCmd => newCmd.toList
  | .idle | .doWork | .processCommands | .lock | .testEmpty | .front
  | .popFront _ | .sendData _ | .nullDereference => []

/-- The session of a state: a command counts as popped when it is answered. -/
def session (state : QueueState) : Session where
  processor :=
    { state.processor with
      cmdFIFO := state.pending ++ state.processor.cmdFIFO }
  exchanges := state.exchanges

/-- An action that leaves the session alone is no event of it. -/
theorem exists_run_of_session_eq
    (same : next.session = state.session) :
    ∃ events,
      TransitionSystem.run Session.step state.session events =
        some next.session :=
  ⟨[], congrArg some same.symm⟩

/-- An action that is one event of the session. -/
theorem exists_run_of_session_step
    (event : SessionEvent)
    (stepped : state.session.step event = some next.session) :
    ∃ events,
      TransitionSystem.run Session.step state.session events =
        some next.session :=
  ⟨[event], TransitionSystem.run_cons_eq_some.mpr ⟨_, stepped, rfl⟩⟩

/-- An action that neither takes a command from the queue nor answers one. -/
structure SameCommands (state next : QueueState) : Prop where
  processor : next.processor = state.processor
  pending : next.pending = state.pending
  popped : next.popped = state.popped
  exchanges : next.exchanges = state.exchanges
  notSending : ∀ response, next.main ≠ .sendData response

theorem SameCommands.session
    (same : SameCommands state next) :
    next.session = state.session := by
  simp only [QueueState.session, same.processor, same.pending, same.exchanges]

/-- Two actions of the main thread concern its command: the one that pops it
and the one that executes it. -/
theorem MainStep.pops_or_executes_or_same
    (stepped : MainStep state next) :
    (∃ newCmd, state.main = .popFront newCmd ∧
      next =
        { state with
          processor :=
            { state.processor with cmdFIFO := state.processor.cmdFIFO.tail }
          main := .unlock (some newCmd)
          popped := state.popped ++ [newCmd]
          poppedInCall := state.poppedInCall ++ [newCmd] }) ∨
    (∃ newCmd, state.main = .execute (some newCmd) ∧
      next =
        { state with
          processor := state.processor.executeCommand newCmd
          main := .sendData (state.processor.executeCommand newCmd).response
          exchanges :=
            state.exchanges ++
              [{ command := newCmd
                 latestResult := state.processor.latestResult
                 response :=
                   (state.processor.executeCommand newCmd).response }] }) ∨
    SameCommands state next := by
  cases stepped with
  | popFront newCmd here => exact Or.inl ⟨newCmd, here, rfl⟩
  | execute newCmd here => exact Or.inr (Or.inl ⟨newCmd, here, rfl⟩)
  | giveUp here stopped =>
      refine Or.inr (Or.inr ⟨rfl, ?_, rfl, rfl, by simp⟩)
      rcases here with here | here <;> simp only [pending, here]
  | call here | goOn here | lock here | findEmpty here | findCommand here
  | front newCmd here | unlock newCmd here | useNull here
  | sendData response here =>
      refine Or.inr (Or.inr ⟨rfl, ?_, rfl, rfl, by simp⟩)
      simp only [pending, here, Option.toList_none]

/-- An action is one event of the session, or none. -/
theorem Consistent.session_step
    (consistent : state.Consistent)
    (stepped : state.step parseFromString action = some next) :
    ∃ events,
      TransitionSystem.run Session.step state.session events =
        some next.session := by
  have mainConsistent := consistent.main
  unfold MainConsistent at mainConsistent
  cases Step.of_step stepped with
  | start idle => exact exists_run_of_session_step .start rfl
  | shutdown idle => exact exists_run_of_session_step .shutdown rfl
  | doWork idle =>
      exact exists_run_of_session_eq (by simp [session, pending, idle])
  | recvCBRoutine strCBMsg idle => exact exists_run_of_session_eq rfl
  | lock cmd here unlocked => exact exists_run_of_session_eq rfl
  | pushBack cmd here =>
      refine exists_run_of_session_step (.push cmd) ?_
      simp [Session.step, session, pending, CommandProcessor.pushBack]
  | unlock here => exact exists_run_of_session_eq rfl
  | programLoop contactRadius centerX centerY =>
      exact exists_run_of_session_step
        (.programLoop contactRadius centerX centerY) rfl
  | main _ mainStepped =>
      rcases mainStepped.pops_or_executes_or_same with
        ⟨newCmd, here, rfl⟩ | ⟨newCmd, here, rfl⟩ | same
      · simp only [here] at mainConsistent
        refine exists_run_of_session_eq ?_
        simp only [session, pending, here, Option.toList_some,
          List.singleton_append, List.nil_append, ← mainConsistent.2.2.2]
      · simp only [here] at mainConsistent
        refine exists_run_of_session_step .doWork ?_
        simp [Session.step, session, pending, here, CommandProcessor.doWork,
          CommandProcessor.processCommands, mainConsistent.2.1,
          CommandProcessor.executeCommand_eq]
      · exact exists_run_of_session_eq same.session

/-- Every interleaving has the exchanges of a session, in which each command is
popped and answered at once. -/
theorem exists_session_of_run
    {exitOnQuit : Bool}
    {actions : List QueueAction}
    (performed : run parseFromString exitOnQuit actions = some state) :
    ∃ events, Session.run exitOnQuit events = some state.session :=
  TransitionSystem.exists_run_of_simulation session
    (fun _ _ _ consistent stepped => Consistent.step consistent stepped)
    (fun _ _ _ consistent stepped => Consistent.session_step consistent stepped)
    (consistent_new exitOnQuit) performed

/-! ## Which command a response answers -/

/-- The exchanges answer the commands popped, in order, and the response to be
sent is the one of the last exchange. -/
structure Answered (state : QueueState) : Prop where
  commands :
    state.exchanges.map Exchange.command ++ state.pending = state.popped
  sending : ∀ response, state.main = .sendData response →
    state.exchanges.getLast?.map Exchange.response = some response

/-- Before any call. -/
theorem answered_new (exitOnQuit : Bool) : (new exitOnQuit).Answered where
  commands := rfl
  sending := by simp [new]

/-- Every action keeps the answers in order. -/
theorem Answered.step
    (answered : state.Answered)
    (stepped : state.step parseFromString action = some next) :
    next.Answered := by
  obtain ⟨commands, sending⟩ := answered
  cases Step.of_step stepped with
  | start idle => exact ⟨commands, sending⟩
  | shutdown idle => exact ⟨commands, sending⟩
  | recvCBRoutine strCBMsg idle => exact ⟨commands, sending⟩
  | lock cmd here unlocked => exact ⟨commands, sending⟩
  | pushBack cmd here => exact ⟨commands, sending⟩
  | unlock here => exact ⟨commands, sending⟩
  | programLoop contactRadius centerX centerY => exact ⟨commands, sending⟩
  | doWork idle =>
      simp only [pending, idle] at commands
      exact ⟨commands, by simp⟩
  | main _ mainStepped =>
      rcases mainStepped.pops_or_executes_or_same with
        ⟨newCmd, here, rfl⟩ | ⟨newCmd, here, rfl⟩ | same
      · simp only [pending, here, List.append_nil] at commands
        exact ⟨by simp [pending, commands], by simp⟩
      · simp only [pending, here, Option.toList_some] at commands
        exact ⟨by simp [pending, commands], by simp⟩
      · refine ⟨?_, fun response sent => absurd sent (same.notSending response)⟩
        rw [same.exchanges, same.pending, same.popped]
        exact commands

/-- Exchanges are only added. -/
theorem exchanges_step
    (stepped : state.step parseFromString action = some next) :
    state.exchanges <+: next.exchanges := by
  cases Step.of_step stepped with
  | main _ mainStepped =>
      cases mainStepped with
      | execute newCmd here => exact List.prefix_append _ _
      | _ => exact List.prefix_rfl
  | _ => exact List.prefix_rfl

/-- Only the receive thread pushes, one command at a time. -/
theorem pushed_step
    (stepped : state.step parseFromString action = some next) :
    next.pushed = state.pushed ∧
        (action = .receiver → ∀ cmd, state.receiver ≠ .pushBack cmd) ∨
      ∃ cmd, action = .receiver ∧ state.receiver = .pushBack cmd ∧
        next.pushed = state.pushed ++ [cmd] := by
  cases Step.of_step stepped with
  | pushBack cmd here => exact Or.inr ⟨cmd, rfl, here, rfl⟩
  | lock cmd here unlocked => exact Or.inl ⟨rfl, by simp [here]⟩
  | unlock here => exact Or.inl ⟨rfl, by simp [here]⟩
  | main _ mainStepped =>
      refine Or.inl ⟨?_, by simp⟩
      cases mainStepped <;> rfl
  | _ => exact Or.inl ⟨rfl, by simp⟩

end QueueState
end ProtobufSandbox
