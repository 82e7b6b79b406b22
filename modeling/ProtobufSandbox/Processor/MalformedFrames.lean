import ProtobufSandbox.Processor.Replies

/-!
# Malformed frames

`recvCBRoutine` pushes a command whether or not its frame could be parsed, and
`processCommands` looks at the fields the parse left, not at how it ended. So a
malformed frame acts like the command made of these fields: it has no effect
exactly where that command happens to have none.
-/

namespace ProtobufSandbox

/-- What `ParseFromString` returns for a frame, and the fields it leaves set. -/
structure Parsed where
  returns : Bool
  message : Command

/-- What happens to a processor that is fed by frames. -/
inductive FrameEvent
  | start
  | shutdown
  | recvCBRoutine (strCBMsg : Bytes)
  | programLoop (contactRadius centerX centerY : UInt64)
  | doWork
  deriving DecidableEq

/-- A session, with the frames whose commands are in the queue. -/
structure FrameSession where
  session : Session
  waiting : List Bytes

/-! ## Reports -/

/-- The result says status OK or holds result data. -/
def ResponseResult.ReportsData (result : ResponseResult) : Prop :=
  result.status_ = some .ok ∨ result.contactRadius_ ≠ none ∨
    0 < result.centerPoint_.size

/-- The response reports success TRUE, status OK or result data. -/
def Response.Reports (response : Response) : Prop :=
  ∃ result, response.result_ = some result ∧
    (result.success_ = some .true ∨ result.ReportsData)

/-- The response reports status OK or result data. -/
def Response.ReportsData (response : Response) : Prop :=
  ∃ result, response.result_ = some result ∧ result.ReportsData

namespace FrameSession

/-- A constructed processor. -/
def new (exitOnQuit : Bool) : FrameSession where
  session := .new exitOnQuit
  waiting := []

/-- One event; `parseFromString` is the parser of the generated class. -/
def step
    (parseFromString : Bytes → Parsed)
    (state : FrameSession) : FrameEvent → Option FrameSession
  | .start =>
      (state.session.step .start).map ({ state with session := · })
  | .shutdown =>
      (state.session.step .shutdown).map ({ state with session := · })
  | .programLoop contactRadius centerX centerY =>
      (state.session.step (.programLoop contactRadius centerX centerY)).map
        ({ state with session := · })
  -- The answer of the parser is dropped.
  | .recvCBRoutine strCBMsg =>
      some
        { session :=
            { state.session with
              processor :=
                state.session.processor.recvCBRoutine
                  (fun frame => (parseFromString frame).message) strCBMsg }
          waiting := state.waiting ++ [strCBMsg] }
  | .doWork =>
      (state.session.step .doWork).map fun session =>
        { session := session
          waiting :=
            if state.session.processor.running then state.waiting.tail
            else state.waiting }

/-- The frame that the next turn of the main loop answers. -/
def answers (state : FrameSession) : FrameEvent → Option Bytes
  | .doWork =>
      if state.session.processor.running then state.waiting.head? else none
  | .start | .shutdown | .recvCBRoutine _ | .programLoop _ _ _ => none

/-- From one session to the next the processor kept running or stayed stopped,
and what was sent reports nothing. -/
structure Unaffected (before after : Session) : Prop where
  running : after.processor.running = before.processor.running
  silent : ∀ exchange ∈ after.exchanges.drop before.exchanges.length,
    ¬ exchange.response.Reports

/-- If the event answers a malformed frame, it has no effect. -/
def IgnoresMalformed
    (parseFromString : Bytes → Parsed)
    (state : FrameSession)
    (event : FrameEvent) : Prop :=
  ∀ frame, state.answers event = some frame →
    (parseFromString frame).returns = false →
    ∀ next, state.step parseFromString event = some next →
      Unaffected state.session next.session

/-- The command made of the fields that a parse left does nothing: it is no
command the processor knows, or a quit command that is not obeyed, and the
response object has nothing to report from the commands before. -/
def DoesNothing (processor : CommandProcessor) (message : Command) : Prop :=
  match CommandProcessor.branchOf message with
  | .quit => processor.exitOnQuit = false ∧ ¬ processor.response.Reports
  | .other => ¬ processor.response.ReportsData
  | .status | .start | .stop | .query => False

/-- If the event answers a malformed frame, the fields left by the parse make a
command that does nothing. -/
def LeavesNothingToDo
    (parseFromString : Bytes → Parsed)
    (state : FrameSession)
    (event : FrameEvent) : Prop :=
  ∀ frame, state.answers event = some frame →
    (parseFromString frame).returns = false →
    DoesNothing state.session.processor (parseFromString frame).message

/-! ## What answering a command reports -/

/-- Changing the result makes the response report what the changed result
reports. -/
theorem reports_mutableResult_iff
    (response : Response)
    (change : ResponseResult → ResponseResult) :
    (response.mutableResult change).Reports ↔
      (change (response.result_.getD .empty)).success_ = some .true ∨
        (change (response.result_.getD .empty)).ReportsData := by
  simp [Response.Reports, Response.mutableResult]

/-- A response without a result has no data. -/
theorem reportsData_getD_iff (response : Response) :
    (response.result_.getD .empty).ReportsData ↔ response.ReportsData := by
  unfold Response.ReportsData
  cases response.result_ with
  | none =>
      simp [ResponseResult.ReportsData, ResponseResult.empty,
        RepeatedField.empty]
  | some result => simp

/-- What the reply to a command reports, by the branch of the command. -/
theorem reports_respond_iff
    (newCmd : Command)
    (latestResult : ResponseResult)
    (response : Response) :
    (CommandProcessor.respond newCmd latestResult response).Reports ↔
      match CommandProcessor.branchOf newCmd with
      | .quit => response.Reports
      | .other => response.ReportsData
      | .status | .start | .stop | .query => True := by
  unfold CommandProcessor.respond
  cases CommandProcessor.branchOf newCmd with
  | quit => rfl
  | status =>
      simp [reports_mutableResult_iff, ResponseResult.ReportsData,
        ResponseResult.setStatus]
  | start => simp [reports_mutableResult_iff, ResponseResult.setSuccess]
  | stop => simp [reports_mutableResult_iff, ResponseResult.setSuccess]
  | query =>
      simp [reports_mutableResult_iff, ResponseResult.ReportsData,
        ResponseResult.setContactRadius, ResponseResult.setCenterPoint]
  | other =>
      rw [← reportsData_getD_iff, reports_mutableResult_iff]
      simp [ResponseResult.setSuccess, ResponseResult.ReportsData,
        Response.setId]

/-- Answering the first command of the queue changes the running flag and sends
the reply. -/
theorem doWork_of_queued
    {session next : Session}
    {newCmd : Command}
    {rest : List Command}
    (running : session.processor.running = true)
    (queued : session.processor.cmdFIFO = newCmd :: rest)
    (stepped : session.step .doWork = some next) :
    next.processor.running =
        !(CommandProcessor.branchOf newCmd = .quit &&
          session.processor.exitOnQuit) ∧
      next.processor.cmdFIFO = rest ∧
      ∃ exchange,
        next.exchanges = session.exchanges ++ [exchange] ∧
          exchange.response =
            CommandProcessor.respond newCmd session.processor.latestResult
              session.processor.response := by
  simp only [Session.step, CommandProcessor.doWork,
    CommandProcessor.processCommands, running, queued, if_true,
    CommandProcessor.executeCommand_eq, Bool.true_eq_false, if_false,
    Option.map_some, Option.some.injEq] at stepped
  subst stepped
  exact ⟨by simp, rfl, _, rfl, rfl⟩

/-- Answering a command has no effect exactly when the command does nothing. -/
theorem unaffected_iff
    {session next : Session}
    {newCmd : Command}
    {rest : List Command}
    (running : session.processor.running = true)
    (queued : session.processor.cmdFIFO = newCmd :: rest)
    (stepped : session.step .doWork = some next) :
    Unaffected session next ↔ DoesNothing session.processor newCmd := by
  obtain ⟨runs, -, exchange, exchanges, reply⟩ :=
    doWork_of_queued running queued stepped
  have sent : next.exchanges.drop session.exchanges.length = [exchange] := by
    rw [exchanges, List.drop_left]
  have report := reports_respond_iff newCmd session.processor.latestResult
    session.processor.response
  have silent :
      Unaffected session next ↔
        next.processor.running = true ∧ ¬ exchange.response.Reports := by
    constructor
    · intro unaffected
      exact ⟨unaffected.running.trans running,
        unaffected.silent exchange (by simp [sent])⟩
    · rintro ⟨stillRunning, silent⟩
      exact ⟨stillRunning.trans running.symm, by simpa [sent] using silent⟩
  rw [silent, reply, report, runs]
  unfold DoesNothing
  cases CommandProcessor.branchOf newCmd with
  | quit => simp
  | status => simp
  | start => simp
  | stop => simp
  | query => simp
  | other => simp

/-! ## Runs -/

/-- The queue holds the commands that were parsed from the waiting frames. -/
def Queued
    (parseFromString : Bytes → Parsed)
    (state : FrameSession) : Prop :=
  state.session.processor.cmdFIFO =
    state.waiting.map fun frame => (parseFromString frame).message

/-- Every event keeps frames and commands together. -/
theorem Queued.step
    {parseFromString : Bytes → Parsed}
    {state next : FrameSession}
    {event : FrameEvent}
    (queued : state.Queued parseFromString)
    (stepped : state.step parseFromString event = some next) :
    next.Queued parseFromString := by
  unfold Queued at *
  cases event with
  | start =>
      obtain rfl := Option.some.inj stepped
      exact queued
  | shutdown =>
      obtain rfl := Option.some.inj stepped
      exact queued
  | programLoop contactRadius centerX centerY =>
      obtain rfl := Option.some.inj stepped
      exact queued
  | recvCBRoutine strCBMsg =>
      obtain rfl := Option.some.inj stepped
      simp [CommandProcessor.recvCBRoutine, CommandProcessor.pushBack, queued]
  | doWork =>
      obtain ⟨session, worked, rfl⟩ := Option.map_eq_some_iff.mp stepped
      dsimp only
      cases running : state.session.processor.running with
      | false =>
          simp only [Session.step, CommandProcessor.doWork, running,
            Bool.false_eq_true, if_false, Option.map_some, Option.some.injEq]
            at worked
          subst worked
          simpa using queued
      | true =>
          cases waiting : state.waiting with
          | nil =>
              rw [waiting] at queued
              simp [Session.step, CommandProcessor.doWork,
                CommandProcessor.processCommands, running, queued] at worked
          | cons frame frames =>
              rw [waiting, List.map_cons] at queued
              obtain ⟨-, rest, -⟩ := doWork_of_queued running queued worked
              rw [rest]
              rfl

/-- A frame is answered in a turn of the main loop that takes it from the
queue. -/
theorem doWork_of_answers
    {parseFromString : Bytes → Parsed}
    {state : FrameSession}
    {event : FrameEvent}
    {frame : Bytes}
    (queued : state.Queued parseFromString)
    (answered : state.answers event = some frame) :
    event = .doWork ∧ state.session.processor.running = true ∧
      ∃ rest, state.session.processor.cmdFIFO =
        (parseFromString frame).message :: rest := by
  cases event with
  | start => cases answered
  | shutdown => cases answered
  | programLoop contactRadius centerX centerY => cases answered
  | recvCBRoutine strCBMsg => cases answered
  | doWork =>
      unfold answers at answered
      cases running : state.session.processor.running with
      | false => simp [running] at answered
      | true =>
          simp only [running, if_true, List.head?_eq_some_iff] at answered
          obtain ⟨frames, waiting⟩ := answered
          refine ⟨rfl, rfl, frames.map fun frame => (parseFromString frame).message, ?_⟩
          rw [queued, waiting, List.map_cons]

/-- A turn of the main loop with a command in the queue has a next state. -/
theorem exists_step_of_queued
    {parseFromString : Bytes → Parsed}
    {state : FrameSession}
    {newCmd : Command}
    {rest : List Command}
    (running : state.session.processor.running = true)
    (queued : state.session.processor.cmdFIFO = newCmd :: rest) :
    ∃ next, state.step parseFromString .doWork = some next ∧
      state.session.step .doWork = some next.session := by
  simp [step, Session.step, CommandProcessor.doWork,
    CommandProcessor.processCommands, running, queued]

/-- In every run, malformed frames have no effect exactly when the fields their
parse leaves make commands that do nothing. -/
theorem ignoresMalformed_iff
    (parseFromString : Bytes → Parsed)
    (exitOnQuit : Bool)
    (events : List FrameEvent) :
    TransitionSystem.Guarded (step parseFromString)
        (IgnoresMalformed parseFromString) (new exitOnQuit) events ↔
      TransitionSystem.Guarded (step parseFromString)
        (LeavesNothingToDo parseFromString) (new exitOnQuit) events := by
  have preserved (state : FrameSession) (event : FrameEvent)
      (next : FrameSession) (queued : state.Queued parseFromString)
      (stepped : state.step parseFromString event = some next) :
      next.Queued parseFromString := queued.step stepped
  have initially : (new exitOnQuit).Queued parseFromString := rfl
  refine TransitionSystem.guarded_iff_guarded preserved ?_ initially events
  intro state event queued
  refine forall₃_congr fun frame answered malformed => ?_
  obtain ⟨rfl, running, rest, front⟩ := doWork_of_answers queued answered
  constructor
  · intro ignored
    obtain ⟨next, stepped, worked⟩ :
        ∃ next, state.step parseFromString .doWork = some next ∧
          state.session.step .doWork = some next.session :=
      exists_step_of_queued running front
    exact (unaffected_iff running front worked).mp (ignored next stepped)
  · intro nothing next stepped
    obtain ⟨session, worked, rfl⟩ := Option.map_eq_some_iff.mp stepped
    exact (unaffected_iff running front worked).mpr nothing

/-- A parser on a frame that holds a method and no id, which is required: the
method stays set. -/
def methodOnly (_ : Bytes) : Parsed where
  returns := false
  message := { id_ := none, method_ := some (ascii ['s', 't', 'o', 'p']) }

/-- The frame of a stop command without an id is answered with success TRUE. -/
theorem not_ignoresMalformed_missing_id :
    ¬ TransitionSystem.Guarded (step methodOnly)
      (IgnoresMalformed methodOnly) (new true)
      [.start, .recvCBRoutine [0x12, 0x04, 0x73, 0x74, 0x6F, 0x70], .doWork] := by
  intro ignored
  have answered :=
    ((ignored.2 _ rfl).2 _ rfl).1 _ rfl rfl _ rfl
  have silent := answered.silent _ (List.mem_singleton.mpr rfl)
  exact silent ⟨_, rfl, .inl rfl⟩

end FrameSession
end ProtobufSandbox
