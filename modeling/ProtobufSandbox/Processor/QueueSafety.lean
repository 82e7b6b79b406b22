import ProtobufSandbox.Processor.CommandQueue
import ProtobufSandbox.Protocol.WireFormat

/-!
# Safety of the command queue

In every interleaving the commands popped and those still queued are the
commands pushed, in order, and a stopped processor pops none. Each call goes on
with a command it popped itself exactly as long as no call finds the queue
empty.
-/

namespace ProtobufSandbox
namespace QueueState

/-! ## The invariant -/

/-- What holds where the main thread stands: it has the mutex in its critical
section, sees the queue there as it tested it, and is only there while the
processor runs; `newCmd` is what this call popped. -/
def MainConsistent (state : QueueState) : Prop :=
  match state.main with
  | .idle | .sendData _ | .nullDereference =>
      state.commandFIFOMutex ≠ some .main
  | .doWork | .processCommands =>
      state.commandFIFOMutex ≠ some .main ∧ state.poppedInCall = []
  | .lock =>
      state.commandFIFOMutex ≠ some .main ∧ state.processor.running = true ∧
        state.poppedInCall = []
  | .testEmpty =>
      state.commandFIFOMutex = some .main ∧ state.processor.running = true ∧
        state.poppedInCall = []
  | .front =>
      state.commandFIFOMutex = some .main ∧ state.processor.running = true ∧
        state.poppedInCall = [] ∧ state.processor.cmdFIFO ≠ []
  | .popFront newCmd =>
      state.commandFIFOMutex = some .main ∧ state.processor.running = true ∧
        state.poppedInCall = [] ∧
        state.processor.cmdFIFO = newCmd :: state.processor.cmdFIFO.tail
  | .unlock newCmd =>
      state.commandFIFOMutex = some .main ∧ state.processor.running = true ∧
        state.poppedInCall = newCmd.toList
  | .execute newCmd =>
      state.commandFIFOMutex ≠ some .main ∧ state.processor.running = true ∧
        state.poppedInCall = newCmd.toList

/-- The receive thread has the mutex exactly in its critical section. -/
def ReceiverConsistent (state : QueueState) : Prop :=
  match state.receiver with
  | .idle | .lock _ => state.commandFIFOMutex ≠ some .receiver
  | .pushBack _ | .unlock => state.commandFIFOMutex = some .receiver

/-- The invariant of the two threads: no command is lost, duplicated or
reordered, and each thread is consistent with the mutex and the queue. -/
structure Consistent (state : QueueState) : Prop where
  conserved : state.popped ++ state.processor.cmdFIFO = state.pushed
  main : state.MainConsistent
  receiver : state.ReceiverConsistent

/-- Before any call. -/
theorem consistent_new (exitOnQuit : Bool) : (new exitOnQuit).Consistent := by
  refine ⟨rfl, ?_, ?_⟩ <;> simp [new, MainConsistent, ReceiverConsistent]

/-- The receive thread stays consistent while another thread takes or releases
the mutex. -/
theorem ReceiverConsistent.of_ne
    {state next : QueueState}
    (consistent : state.ReceiverConsistent)
    (outside : state.commandFIFOMutex ≠ some .receiver)
    (same : next.receiver = state.receiver)
    (nextOutside : next.commandFIFOMutex ≠ some .receiver) :
    next.ReceiverConsistent := by
  unfold ReceiverConsistent at *
  rw [same]
  cases receiver : state.receiver <;>
    simp only [receiver] at consistent ⊢ <;>
      first
        | exact nextOutside
        | exact absurd consistent outside

/-- The receive thread is consistent with its mutex alone. -/
theorem ReceiverConsistent.of_eq
    {state next : QueueState}
    (consistent : state.ReceiverConsistent)
    (sameReceiver : next.receiver = state.receiver)
    (sameMutex : next.commandFIFOMutex = state.commandFIFOMutex) :
    next.ReceiverConsistent := by
  unfold ReceiverConsistent at *
  rwa [sameReceiver, sameMutex]

/-- Outside its critical section the main thread stays consistent while another
thread changes the queue. -/
theorem MainConsistent.of_ne
    {state next : QueueState}
    (consistent : state.MainConsistent)
    (outside : state.commandFIFOMutex ≠ some .main)
    (nextOutside : next.commandFIFOMutex ≠ some .main)
    (sameMain : next.main = state.main)
    (sameRunning : next.processor.running = state.processor.running)
    (sameCall : next.poppedInCall = state.poppedInCall) :
    next.MainConsistent := by
  unfold MainConsistent at *
  rw [sameMain]
  cases main : state.main <;>
    simp only [main, sameRunning, sameCall] at consistent ⊢ <;>
      first
        | exact absurd consistent.1 outside
        | exact ⟨nextOutside, consistent.2⟩
        | exact nextOutside

/-- The main thread is consistent with the mutex, the running flag, the queue
and its call. -/
theorem MainConsistent.of_eq
    {state next : QueueState}
    (consistent : state.MainConsistent)
    (sameMain : next.main = state.main)
    (sameMutex : next.commandFIFOMutex = state.commandFIFOMutex)
    (sameRunning : next.processor.running = state.processor.running)
    (sameQueue : next.processor.cmdFIFO = state.processor.cmdFIFO)
    (sameCall : next.poppedInCall = state.poppedInCall) :
    next.MainConsistent := by
  unfold MainConsistent at *
  rwa [sameMain, sameMutex, sameRunning, sameQueue, sameCall]

/-- Between two calls the main thread only has to be without the mutex. -/
theorem mainConsistent_of_idle
    {state : QueueState}
    (idle : state.main = .idle) :
    state.MainConsistent ↔ state.commandFIFOMutex ≠ some .main := by
  simp only [MainConsistent, idle]

/-- An action of the main thread keeps the invariant. -/
theorem Consistent.mainStep
    {state next : QueueState}
    (consistent : state.Consistent)
    (stepped : MainStep state next) :
    next.Consistent := by
  obtain ⟨conserved, mainConsistent, receiverConsistent⟩ := consistent
  unfold MainConsistent at mainConsistent
  cases stepped with
  | call here running =>
      simp only [here] at mainConsistent
      exact ⟨conserved, mainConsistent, receiverConsistent.of_eq rfl rfl⟩
  | giveUp here stopped =>
      refine ⟨conserved, ?_, receiverConsistent.of_eq rfl rfl⟩
      rcases here with here | here <;>
        · simp only [here] at mainConsistent
          exact mainConsistent.1
  | goOn here running =>
      simp only [here] at mainConsistent
      exact ⟨conserved, ⟨mainConsistent.1, running, mainConsistent.2⟩,
        receiverConsistent.of_eq rfl rfl⟩
  | lock here unlocked =>
      simp only [here] at mainConsistent
      exact ⟨conserved, ⟨rfl, mainConsistent.2⟩,
        receiverConsistent.of_ne (by simp [unlocked]) rfl (by simp)⟩
  | findEmpty here empty =>
      simp only [here] at mainConsistent
      exact ⟨conserved, mainConsistent, receiverConsistent.of_eq rfl rfl⟩
  | findCommand here nonempty =>
      simp only [here] at mainConsistent
      obtain ⟨locked, running, nothing⟩ := mainConsistent
      exact ⟨conserved, ⟨locked, running, nothing, nonempty⟩,
        receiverConsistent.of_eq rfl rfl⟩
  | front newCmd here first =>
      simp only [here] at mainConsistent
      obtain ⟨locked, running, nothing, _⟩ := mainConsistent
      exact ⟨conserved, ⟨locked, running, nothing,
        List.eq_cons_of_mem_head? first⟩, receiverConsistent.of_eq rfl rfl⟩
  | popFront newCmd here =>
      simp only [here] at mainConsistent
      obtain ⟨locked, running, nothing, first⟩ := mainConsistent
      refine ⟨?_, ⟨locked, running, by simp [nothing]⟩,
        receiverConsistent.of_eq rfl rfl⟩
      rw [List.append_assoc, List.singleton_append, ← first]
      exact conserved
  | unlock newCmd here =>
      simp only [here] at mainConsistent
      obtain ⟨locked, running, popped⟩ := mainConsistent
      exact ⟨conserved, ⟨by simp, running, popped⟩,
        receiverConsistent.of_ne (by simp [locked]) rfl (by simp)⟩
  | useNull here =>
      simp only [here] at mainConsistent
      exact ⟨conserved, mainConsistent.1, receiverConsistent.of_eq rfl rfl⟩
  | execute newCmd here =>
      simp only [here] at mainConsistent
      refine ⟨?_, mainConsistent.1, receiverConsistent.of_eq rfl rfl⟩
      rw [CommandProcessor.executeCommand_eq]
      exact conserved
  | sendData response here =>
      simp only [here] at mainConsistent
      exact ⟨conserved, mainConsistent, receiverConsistent.of_eq rfl rfl⟩

/-- Every action keeps the invariant. -/
theorem Consistent.step
    {parseFromString : Bytes → Command}
    {state next : QueueState}
    {action : QueueAction}
    (consistent : state.Consistent)
    (stepped : state.step parseFromString action = some next) :
    next.Consistent := by
  obtain ⟨conserved, mainConsistent, receiverConsistent⟩ := consistent
  have outside := receiverConsistent
  unfold ReceiverConsistent at outside
  cases Step.of_step stepped with
  | main _ mainStepped =>
      exact Consistent.mainStep ⟨conserved, mainConsistent, receiverConsistent⟩
        mainStepped
  | start idle =>
      refine ⟨conserved, (mainConsistent_of_idle ?_).mpr ?_,
        receiverConsistent.of_eq rfl rfl⟩
      · exact idle
      · exact (mainConsistent_of_idle idle).mp mainConsistent
  | shutdown idle =>
      refine ⟨conserved, (mainConsistent_of_idle ?_).mpr ?_,
        receiverConsistent.of_eq rfl rfl⟩
      · exact idle
      · exact (mainConsistent_of_idle idle).mp mainConsistent
  | doWork idle =>
      exact ⟨conserved, ⟨(mainConsistent_of_idle idle).mp mainConsistent, rfl⟩,
        receiverConsistent.of_eq rfl rfl⟩
  | recvCBRoutine strCBMsg idle =>
      simp only [idle] at outside
      exact ⟨conserved, mainConsistent.of_eq rfl rfl rfl rfl rfl, outside⟩
  | lock cmd here unlocked =>
      exact ⟨conserved,
        mainConsistent.of_ne (by simp [unlocked]) (by simp) rfl rfl rfl, rfl⟩
  | pushBack cmd here =>
      simp only [here] at outside
      refine ⟨?_, mainConsistent.of_ne (by simp [outside]) (by simp [outside])
        rfl rfl rfl, outside⟩
      rw [← conserved, List.append_assoc]
      rfl
  | unlock here =>
      simp only [here] at outside
      exact ⟨conserved,
        mainConsistent.of_ne (by simp [outside]) (by simp) rfl rfl rfl,
        by simp [ReceiverConsistent]⟩
  | programLoop contactRadius centerX centerY =>
      exact ⟨conserved, mainConsistent.of_eq rfl rfl rfl rfl rfl,
        receiverConsistent.of_eq rfl rfl⟩

/-- Every interleaving keeps the invariant. -/
theorem consistent_run
    {parseFromString : Bytes → Command}
    {exitOnQuit : Bool}
    {actions : List QueueAction}
    {state : QueueState}
    (performed : run parseFromString exitOnQuit actions = some state) :
    state.Consistent :=
  TransitionSystem.run_preserves
    (fun _ _ _ consistent stepped => Consistent.step consistent stepped)
    (consistent_new exitOnQuit) performed

/-! ## After the processor stopped -/

/-- While the processor does not run, only `Start` leads on: any other action
leaves it stopped and pops nothing. -/
theorem Consistent.step_stopped
    {parseFromString : Bytes → Command}
    {state next : QueueState}
    {action : QueueAction}
    (consistent : state.Consistent)
    (stopped : state.processor.running = false)
    (noStart : action ≠ .start)
    (stepped : state.step parseFromString action = some next) :
    next.processor.running = false ∧ next.popped = state.popped := by
  have mainConsistent := consistent.main
  unfold MainConsistent at mainConsistent
  cases Step.of_step stepped with
  | start idle => exact absurd rfl noStart
  | shutdown idle => exact ⟨rfl, rfl⟩
  | main _ mainStepped =>
      cases mainStepped with
      | popFront newCmd here =>
          simp only [here] at mainConsistent
          exact absurd (stopped.symm.trans mainConsistent.2.1) Bool.false_ne_true
      | execute newCmd here =>
          simp only [here] at mainConsistent
          exact absurd (stopped.symm.trans mainConsistent.2.1) Bool.false_ne_true
      | _ => exact ⟨stopped, rfl⟩
  | _ => exact ⟨stopped, rfl⟩

/-- No interleaving loses, duplicates or reorders a command, and once the
processor has stopped none pops another one before it is started again. -/
theorem commands_conserved_and_none_popped_after_stop
    (parseFromString : Bytes → Command)
    (exitOnQuit : Bool)
    (actions : List QueueAction)
    (state : QueueState)
    (performed : run parseFromString exitOnQuit actions = some state) :
    state.popped ++ state.processor.cmdFIFO = state.pushed ∧
      (state.processor.running = false →
        ∀ laterActions later,
          .start ∉ laterActions →
            TransitionSystem.run (step parseFromString) state laterActions =
              some later →
              later.popped = state.popped) := by
  have consistent := consistent_run performed
  refine ⟨consistent.conserved, fun stopped laterActions later noStart rest => ?_⟩
  have guarded :
      TransitionSystem.Guarded (step parseFromString)
        (fun _ action => action ≠ .start) state laterActions := by
    refine TransitionSystem.guarded_of_forall ?_ state
    intro action present _ isStart
    exact noStart (isStart ▸ present)
  have preserved (current : QueueState) (action : QueueAction)
      (next : QueueState)
      (holds : current.Consistent ∧ current.processor.running = false ∧
        current.popped = state.popped)
      (allowed : action ≠ .start)
      (stepped : current.step parseFromString action = some next) :
      next.Consistent ∧ next.processor.running = false ∧
        next.popped = state.popped := by
    obtain ⟨nextStopped, samePopped⟩ :=
      holds.1.step_stopped holds.2.1 allowed stepped
    exact ⟨holds.1.step stepped, nextStopped, samePopped.trans holds.2.2⟩
  exact (TransitionSystem.run_preserves_of_guarded preserved
    ⟨consistent, stopped, rfl⟩ guarded rest).2.2

/-- A quit command that arrives while the main thread holds the mutex and is obeyed in
the next call, and a status command that arrives when it has been. -/
def statusAndQuit : List QueueAction :=
  [.start, .recvCBRoutine (Session.statusCommand 1).serializeToString, .receiver,
    .receiver, .receiver, .doWork] ++ List.replicate 6 .main ++
  [.recvCBRoutine (Command.of 2 (ascii ['q', 'u', 'i', 't'])).serializeToString, .main,
    .receiver, .main, .receiver, .main, .receiver, .doWork] ++ List.replicate 9 .main ++
  [.recvCBRoutine (Session.statusCommand 3).serializeToString, .receiver, .receiver,
    .receiver]

/-- The three commands are kept in order, and the last one is not popped by a later
call. -/
theorem commands_conserved_quit :
    ∃ state later,
      run parseFields true statusAndQuit = some state ∧
        TransitionSystem.run (step parseFields) state [.doWork, .main] = some later ∧
        state.popped ++ state.processor.cmdFIFO =
          [Session.statusCommand 1, .of 2 (ascii ['q', 'u', 'i', 't']),
            Session.statusCommand 3] ∧
        later.popped = state.popped := by
  -- What the state is asked for is evaluated once, so that the state stays a name.
  have stops : (run parseFields true statusAndQuit).map (fun state =>
      (state.processor.running, state.main, state.pushed)) =
      some (false, .idle, [Session.statusCommand 1, .of 2 (ascii ['q', 'u', 'i', 't']),
        Session.statusCommand 3]) := by
    decide +kernel
  obtain ⟨state, performed, atRest⟩ := Option.map_eq_some_iff.mp stops
  simp only [Prod.mk.injEq] at atRest
  obtain ⟨stopped, idle, pushed⟩ := atRest
  obtain ⟨conserved, nonePopped⟩ :=
    commands_conserved_and_none_popped_after_stop parseFields true statusAndQuit state
      performed
  have called : TransitionSystem.run (step parseFields) state [.doWork, .main] =
      some { state with main := .idle, poppedInCall := [] } := by
    simp [TransitionSystem.run, step, mainStep, idle, stopped]
  exact ⟨state, _, performed, called, conserved.trans pushed,
    nonePopped stopped [.doWork, .main] _ (by decide) called⟩

/-! ## The command of a call -/

/-- From its critical section on, what a call goes on to use is a command it
popped itself. -/
def UsesPopped (state : QueueState) : Prop :=
  match state.main with
  | .unlock newCmd | .execute newCmd =>
      ∃ popped, newCmd = some popped ∧ state.poppedInCall = [popped]
  | .nullDereference => False
  | .idle | .doWork | .processCommands | .lock | .testEmpty | .front
  | .popFront _ | .sendData _ => True

/-- An action that tests the queue finds a command in it. -/
def FindsCommand (state : QueueState) (action : QueueAction) : Prop :=
  action = .main → state.main = .testEmpty → state.processor.cmdFIFO ≠ []

instance (state : QueueState) (action : QueueAction) :
    Decidable (state.FindsCommand action) :=
  inferInstanceAs (Decidable (_ → _ → _))

/-- What a call uses depends on where the main thread stands and what it
popped. -/
theorem UsesPopped.of_eq
    {state next : QueueState}
    (usesPopped : state.UsesPopped)
    (sameMain : next.main = state.main)
    (sameCall : next.poppedInCall = state.poppedInCall) :
    next.UsesPopped := by
  unfold UsesPopped at *
  rwa [sameMain, sameCall]

/-- An action leaves the call with a command of its own exactly if it does not
find the queue empty. -/
theorem usesPopped_step_iff
    {parseFromString : Bytes → Command}
    {state next : QueueState}
    {action : QueueAction}
    (consistent : state.Consistent)
    (usesPopped : state.UsesPopped)
    (stepped : state.step parseFromString action = some next) :
    next.UsesPopped ↔ state.FindsCommand action := by
  have elsewhere (kept : next.UsesPopped)
      (notTest : action = .main → state.main ≠ .testEmpty) :
      next.UsesPopped ↔ state.FindsCommand action :=
    ⟨fun _ isMain isTest => absurd isTest (notTest isMain), fun _ => kept⟩
  have mainConsistent := consistent.main
  unfold MainConsistent at mainConsistent
  cases Step.of_step stepped with
  | start idle => exact elsewhere (usesPopped.of_eq rfl rfl) (by simp)
  | shutdown idle => exact elsewhere (usesPopped.of_eq rfl rfl) (by simp)
  | doWork idle => exact elsewhere trivial (by simp)
  | recvCBRoutine strCBMsg idle =>
      exact elsewhere (usesPopped.of_eq rfl rfl) (by simp)
  | lock cmd here unlocked =>
      exact elsewhere (usesPopped.of_eq rfl rfl) (by simp)
  | pushBack cmd here => exact elsewhere (usesPopped.of_eq rfl rfl) (by simp)
  | unlock here => exact elsewhere (usesPopped.of_eq rfl rfl) (by simp)
  | programLoop contactRadius centerX centerY =>
      exact elsewhere (usesPopped.of_eq rfl rfl) (by simp)
  | main _ mainStepped =>
      unfold UsesPopped at usesPopped
      cases mainStepped with
      | call here running => exact elsewhere trivial (by simp [here])
      | giveUp here stopped =>
          exact elsewhere trivial (by rcases here with here | here <;> simp [here])
      | goOn here running => exact elsewhere trivial (by simp [here])
      | lock here unlocked => exact elsewhere trivial (by simp [here])
      | findEmpty here empty =>
          constructor
          · rintro ⟨popped, isSome, _⟩
            cases isSome
          · intro finds
            exact absurd empty (finds rfl here)
      | findCommand here nonempty => exact ⟨fun _ _ _ => nonempty, fun _ => trivial⟩
      | front newCmd here first => exact elsewhere trivial (by simp [here])
      | popFront newCmd here =>
          simp only [here] at mainConsistent
          exact elsewhere ⟨newCmd, rfl, by simp [mainConsistent.2.2.1]⟩
            (by simp [here])
      | unlock newCmd here =>
          simp only [here] at usesPopped
          exact elsewhere usesPopped (by simp [here])
      | useNull here =>
          simp only [here] at usesPopped
          obtain ⟨popped, isSome, _⟩ := usesPopped
          cases isSome
      | execute newCmd here => exact elsewhere trivial (by simp [here])
      | sendData response here => exact elsewhere trivial (by simp [here])

/-- In every interleaving, each call uses a command it popped itself, and none
uses a null command, exactly if the queue holds a command whenever
`processCommands` tests it. -/
theorem uses_popped_iff_finds_command
    {parseFromString : Bytes → Command}
    {exitOnQuit : Bool}
    {actions : List QueueAction}
    {state : QueueState}
    (performed : run parseFromString exitOnQuit actions = some state) :
    TransitionSystem.Along (step parseFromString) UsesPopped (new exitOnQuit)
        actions ↔
      TransitionSystem.Guarded (step parseFromString) FindsCommand
        (new exitOnQuit) actions := by
  refine TransitionSystem.along_iff_guarded ?_ ?_ (consistent_new exitOnQuit)
    trivial performed
  · exact fun _ _ _ consistent stepped => consistent.step stepped
  · exact fun _ _ _ consistent usesPopped stepped =>
      usesPopped_step_iff consistent usesPopped stepped

/-- A started server that calls `doWork` before any command arrives uses a null
command. -/
theorem empty_queue_uses_null_command :
    ∃ state,
      run (fun _ => Session.statusCommand 1) true
          ([.start, .doWork] ++ List.replicate 6 .main) = some state ∧
        state.main = .nullDereference ∧ ¬ state.UsesPopped :=
  ⟨_, rfl, rfl, id⟩

/-- A call that starts while a command waits uses that command. -/
theorem uses_popped_iff_finds_command_waiting :
    TransitionSystem.Along (step fun _ => Session.statusCommand 1) UsesPopped
      (new true)
      ([.start, .recvCBRoutine [], .receiver, .receiver, .receiver, .doWork] ++
        List.replicate 9 .main) := by
  refine (uses_popped_iff_finds_command (show run _ true _ = some _ from
    rfl)).mpr ?_
  decide

end QueueState
end ProtobufSandbox
