import ProtobufSandbox.Foundation.History
import ProtobufSandbox.Foundation.TransitionSystem
import ProtobufSandbox.Processor.CommandProcessor

/-!
# The replies of the command processor

One response object serves all commands, and each command writes only the fields
of its branch. So a reply consists of the last values written to each field. The
id and the other fields agree with the command just answered only as far as its
branch, or the commands before it, happened to write them.
-/

namespace ProtobufSandbox

/-! ## Sessions -/

/-- A processed command, the contents of `m_latestResult` when it was processed,
and the response that was handed to `sendData`. -/
structure Exchange where
  command : Command
  latestResult : ResponseResult
  response : Response
  deriving DecidableEq

/-- A command processor in use, with the exchanges it had so far. -/
structure Session where
  processor : CommandProcessor
  exchanges : List Exchange
  deriving DecidableEq

/-- What happens to a command processor between two commands, and a turn of the
main loop. -/
inductive SessionEvent
  | start
  | shutdown
  | push (cmd : Command)
  | programLoop (contactRadius centerX centerY : UInt64)
  | doWork

namespace Session

/-- A constructed processor. -/
def new (exitOnQuit : Bool) : Session where
  processor := .new exitOnQuit
  exchanges := []

/-- One event. A turn of the main loop with an empty queue has no next state. -/
def step (session : Session) : SessionEvent → Option Session
  | .start => some { session with processor := session.processor.start }
  | .shutdown => some { session with processor := session.processor.shutdown }
  | .push cmd => some { session with processor := session.processor.pushBack cmd }
  | .programLoop contactRadius centerX centerY =>
      some
        { session with
          processor :=
            session.processor.programLoop contactRadius centerX centerY }
  | .doWork =>
      session.processor.doWork.map fun processed =>
        { processor := processed.processor
          exchanges :=
            session.exchanges ++
              processed.answered.toList.map fun (command, response) =>
                { command := command
                  latestResult := session.processor.latestResult
                  response := response } }

/-- A session after some events. -/
def run (exitOnQuit : Bool) (events : List SessionEvent) : Option Session :=
  TransitionSystem.run step (new exitOnQuit) events

/-- An event leaves the response and the exchanges alone, or answers one
command. -/
theorem step_cases
    {session next : Session}
    {event : SessionEvent}
    (stepped : session.step event = some next) :
    (next.processor.response = session.processor.response ∧
        next.exchanges = session.exchanges) ∨
      ∃ newCmd,
        next.processor.response =
          CommandProcessor.respond newCmd session.processor.latestResult
            session.processor.response ∧
        next.exchanges =
          session.exchanges ++
            [{ command := newCmd
               latestResult := session.processor.latestResult
               response := next.processor.response }] := by
  cases event with
  | start =>
      cases stepped
      exact Or.inl ⟨rfl, rfl⟩
  | shutdown =>
      cases stepped
      exact Or.inl ⟨rfl, rfl⟩
  | push cmd =>
      cases stepped
      exact Or.inl ⟨rfl, rfl⟩
  | programLoop contactRadius centerX centerY =>
      cases stepped
      exact Or.inl ⟨rfl, rfl⟩
  | doWork =>
      obtain ⟨processed, worked, rfl⟩ := Option.map_eq_some_iff.mp stepped
      unfold CommandProcessor.doWork CommandProcessor.processCommands at worked
      cases running : session.processor.running with
      | false =>
          simp only [running] at worked
          cases worked
          exact Or.inl ⟨rfl, by simp⟩
      | true =>
          simp only [running, if_true] at worked
          cases queue : session.processor.cmdFIFO with
          | nil => simp [queue] at worked
          | cons newCmd rest =>
              simp only [queue] at worked
              cases worked
              refine Or.inr ⟨newCmd, ?_, by simp⟩
              rw [CommandProcessor.executeCommand_eq]

end Session

/-! ## The last writer of a field -/

namespace Exchange

open CommandProcessor
open History

/-- The id that processing a command writes. -/
def writesId (exchange : Exchange) : Option Int32 :=
  match branchOf exchange.command with
  | .quit => none
  | .status | .start | .stop | .query | .other => some exchange.command.id

/-- The success value it writes. -/
def writesSuccess (exchange : Exchange) : Option Success :=
  match branchOf exchange.command with
  | .start | .stop => some .true
  | .other => some .false
  | .quit | .status | .query => none

/-- The status it writes. -/
def writesStatus (exchange : Exchange) : Option Status :=
  match branchOf exchange.command with
  | .status => some .ok
  | .quit | .start | .stop | .query | .other => none

/-- The contact radius it writes. -/
def writesContactRadius (exchange : Exchange) : Option UInt64 :=
  match branchOf exchange.command with
  | .query => some exchange.latestResult.contactRadius
  | .quit | .status | .start | .stop | .other => none

/-- The two coordinates of the center point it writes. -/
def writesCenterPoint (exchange : Exchange) : Option (UInt64 × UInt64) :=
  match branchOf exchange.command with
  | .query =>
      some
        (exchange.latestResult.centerPoint 0,
          exchange.latestResult.centerPoint 1)
  | .quit | .status | .start | .stop | .other => none

/-- The center point with these coordinates stored, if any. -/
def storedCenterPoint (coordinates : Option (UInt64 × UInt64)) : RepeatedField where
  size := 0
  elements := coordinates.elim [] fun (centerX, centerY) => [centerX, centerY]

/-- The result that holds the last value written to each field. -/
def lastResult (exchanges : List Exchange) : ResponseResult where
  success_ := lastWrite writesSuccess exchanges
  status_ := lastWrite writesStatus exchanges
  contactRadius_ := lastWrite writesContactRadius exchanges
  centerPoint_ := storedCenterPoint (lastWrite writesCenterPoint exchanges)

/-- The response that holds the last value written to each field. The branches
that set the id are those that create the result. -/
def lastResponse (exchanges : List Exchange) : Response where
  id_ := lastWrite writesId exchanges
  result_ := (lastWrite writesId exchanges).map fun _ => lastResult exchanges

/-- As long as no id was written, no field of the result was. -/
theorem lastResult_eq_empty
    {exchanges : List Exchange}
    (unwritten : lastWrite writesId exchanges = none) :
    lastResult exchanges = .empty := by
  have quits (exchange : Exchange) (nothing : writesId exchange = none) :
      branchOf exchange.command = .quit := by
    unfold writesId at nothing
    split at nothing
    · assumption
    all_goals cases nothing
  have noSuccess : lastWrite writesSuccess exchanges = none := by
    refine lastWrite_eq_none_of (fun exchange nothing => ?_) unwritten
    simp [writesSuccess, quits exchange nothing]
  have noStatus : lastWrite writesStatus exchanges = none := by
    refine lastWrite_eq_none_of (fun exchange nothing => ?_) unwritten
    simp [writesStatus, quits exchange nothing]
  have noContactRadius : lastWrite writesContactRadius exchanges = none := by
    refine lastWrite_eq_none_of (fun exchange nothing => ?_) unwritten
    simp [writesContactRadius, quits exchange nothing]
  have noCenterPoint : lastWrite writesCenterPoint exchanges = none := by
    refine lastWrite_eq_none_of (fun exchange nothing => ?_) unwritten
    simp [writesCenterPoint, quits exchange nothing]
  rw [lastResult, noSuccess, noStatus, noContactRadius, noCenterPoint]
  rfl

/-- Storing both coordinates replaces the center point. -/
theorem set_storedCenterPoint
    (coordinates : Option (UInt64 × UInt64))
    (centerX centerY : UInt64) :
    ((storedCenterPoint coordinates).set 0 centerX).set 1 centerY =
      storedCenterPoint (some (centerX, centerY)) := by
  cases coordinates with
  | none => rfl
  | some stored => rfl

/-- What is stored tells the coordinates. -/
theorem storedCenterPoint_inj
    {first second : Option (UInt64 × UInt64)} :
    storedCenterPoint first = storedCenterPoint second ↔ first = second := by
  constructor
  · intro same
    cases first <;> cases second <;>
      simp_all [storedCenterPoint, Prod.ext_iff]
  · exact congrArg _

/-- Equal last responses hold equal last values. -/
theorem lastResponse_inj
    {first second : List Exchange} :
    lastResponse first = lastResponse second ↔
      lastWrite writesId first = lastWrite writesId second ∧
        lastResult first = lastResult second := by
  unfold lastResponse
  rw [Response.mk.injEq]
  refine and_congr_right fun sameId => ?_
  rw [sameId]
  cases written : lastWrite writesId second with
  | none =>
      rw [lastResult_eq_empty (sameId.trans written), lastResult_eq_empty written]
      simp
  | some value => simp

/-- Answering a command under its id changes the last result. -/
theorem mutableResult_lastResponse
    (exchanges : List Exchange)
    (value : Int32)
    (change : ResponseResult → ResponseResult) :
    ((lastResponse exchanges).setId value).mutableResult change =
      { id_ := some value
        result_ := some (change (lastResult exchanges)) } := by
  unfold lastResponse Response.setId Response.mutableResult
  cases written : lastWrite writesId exchanges with
  | none => rw [lastResult_eq_empty written]; rfl
  | some value => rfl

/-- A further exchange overrides what it writes. -/
theorem lastResponse_concat
    (exchanges : List Exchange)
    (exchange : Exchange) :
    lastResponse (exchanges ++ [exchange]) =
      { id_ := exchange.writesId.or (lastWrite writesId exchanges)
        result_ :=
          (exchange.writesId.or (lastWrite writesId exchanges)).map fun _ =>
            { success_ :=
                exchange.writesSuccess.or (lastWrite writesSuccess exchanges)
              status_ :=
                exchange.writesStatus.or (lastWrite writesStatus exchanges)
              contactRadius_ :=
                exchange.writesContactRadius.or
                  (lastWrite writesContactRadius exchanges)
              centerPoint_ :=
                storedCenterPoint
                  (exchange.writesCenterPoint.or
                    (lastWrite writesCenterPoint exchanges)) } } := by
  simp only [lastResponse, lastResult, lastWrite_concat]

/-- A command turns the last values written before it into those written up to
it. -/
theorem respond_lastResponse
    (exchanges : List Exchange)
    (exchange : Exchange) :
    respond exchange.command exchange.latestResult (lastResponse exchanges) =
      lastResponse (exchanges ++ [exchange]) := by
  rw [lastResponse_concat]
  unfold respond
  cases branch : branchOf exchange.command with
  | quit =>
      simp [writesId, writesSuccess, writesStatus, writesContactRadius,
        writesCenterPoint, branch, lastResponse, lastResult]
  | status =>
      simp [writesId, writesSuccess, writesStatus, writesContactRadius,
        writesCenterPoint, branch, mutableResult_lastResponse,
        ResponseResult.setStatus, lastResult]
  | start =>
      simp [writesId, writesSuccess, writesStatus, writesContactRadius,
        writesCenterPoint, branch, mutableResult_lastResponse,
        ResponseResult.setSuccess, lastResult]
  | stop =>
      simp [writesId, writesSuccess, writesStatus, writesContactRadius,
        writesCenterPoint, branch, mutableResult_lastResponse,
        ResponseResult.setSuccess, lastResult]
  | query =>
      simp [writesId, writesSuccess, writesStatus, writesContactRadius,
        writesCenterPoint, branch, mutableResult_lastResponse,
        ResponseResult.setContactRadius, ResponseResult.setCenterPoint,
        lastResult, set_storedCenterPoint]
  | other =>
      simp [writesId, writesSuccess, writesStatus, writesContactRadius,
        writesCenterPoint, branch, mutableResult_lastResponse,
        ResponseResult.setSuccess, lastResult]

end Exchange

/-! ## What a session sends -/

namespace Session

open CommandProcessor
open Exchange
open History

/-- The response object, and every response sent, hold the last value written
to each of their fields. -/
structure Recorded (session : Session) : Prop where
  response : session.processor.response = lastResponse session.exchanges
  sent :
    AtEach
      (fun earlier exchange =>
        exchange.response = lastResponse (earlier ++ [exchange]))
      session.exchanges

/-- Before the first command nothing was written. -/
theorem recorded_new (exitOnQuit : Bool) : (new exitOnQuit).Recorded where
  response := rfl
  sent := atEach_nil _

/-- An event keeps the record. -/
theorem Recorded.step
    {session next : Session}
    {event : SessionEvent}
    (recorded : session.Recorded)
    (stepped : session.step event = some next) :
    next.Recorded := by
  rcases step_cases stepped with ⟨response, exchanges⟩ |
    ⟨newCmd, response, exchanges⟩
  · refine ⟨?_, ?_⟩
    · rw [response, exchanges]
      exact recorded.response
    · rw [exchanges]
      exact recorded.sent
  · have latest :
        next.processor.response = lastResponse next.exchanges := by
      rw [exchanges, ← respond_lastResponse]
      rw [response, recorded.response]
    refine ⟨latest, ?_⟩
    rw [exchanges, atEach_concat]
    exact ⟨recorded.sent, latest.trans (congrArg lastResponse exchanges)⟩

/-- Every session is recorded. -/
theorem recorded_run
    {exitOnQuit : Bool}
    {events : List SessionEvent}
    {session : Session}
    (performed : run exitOnQuit events = some session) :
    session.Recorded :=
  TransitionSystem.run_preserves
    (fun _ _ _ recorded stepped => Recorded.step recorded stepped)
    (recorded_new exitOnQuit) performed

/-! ## The id of a reply -/

/-- Every quit command comes right after a command with the same id. -/
def QuitsRepeat : Option Int32 → List Command → Prop
  | _, [] => True
  | previous, newCmd :: rest =>
      (branchOf newCmd = .quit → previous = some newCmd.id) ∧
        QuitsRepeat (some newCmd.id) rest

/-- A further command matters only if it is a quit command. -/
theorem quitsRepeat_concat
    (previous : Option Int32)
    (commands : List Command)
    (newCmd : Command) :
    QuitsRepeat previous (commands ++ [newCmd]) ↔
      QuitsRepeat previous commands ∧
        (branchOf newCmd = .quit →
          (commands.getLast?.map Command.id).or previous = some newCmd.id) := by
  induction commands generalizing previous with
  | nil => simp [QuitsRepeat]
  | cons command commands inductionHypothesis =>
      rw [List.cons_append, QuitsRepeat, QuitsRepeat, inductionHypothesis,
        and_assoc]
      cases commands with
      | nil => simp
      | cons second rest =>
          obtain ⟨last, ended⟩ :
              ∃ last, (second :: rest).getLast? = some last :=
            ⟨_, List.getLast?_eq_some_getLast (List.cons_ne_nil _ _)⟩
          rw [List.getLast?_cons_cons, ended]
          rfl

/-- The id of a reply is that of its command, unless the command is a quit
command: then it is the last id written before. -/
theorem id_lastResponse_concat
    (earlier : List Exchange)
    (exchange : Exchange) :
    (lastResponse (earlier ++ [exchange])).id_ = some exchange.command.id ↔
      (branchOf exchange.command = .quit →
        lastWrite writesId earlier = some exchange.command.id) := by
  rw [lastResponse_concat]
  cases branch : branchOf exchange.command <;>
    simp [writesId, branch]

/-- While all replies carry the ids of their commands, the last id written is
that of the last command. -/
theorem ids_correlated
    {exchanges : List Exchange}
    (sent :
      AtEach
        (fun earlier exchange =>
          exchange.response = lastResponse (earlier ++ [exchange]))
        exchanges) :
    ((∀ exchange ∈ exchanges,
        exchange.response.id_ = some exchange.command.id) ↔
      QuitsRepeat none (exchanges.map Exchange.command)) ∧
      ((∀ exchange ∈ exchanges,
          exchange.response.id_ = some exchange.command.id) →
        lastWrite writesId exchanges =
          (exchanges.map Exchange.command).getLast?.map Command.id) := by
  induction exchanges using List.reverseRecOn with
  | nil => simp [QuitsRepeat]
  | append_singleton exchanges exchange inductionHypothesis =>
      rw [atEach_concat] at sent
      obtain ⟨correlated, lastId⟩ := inductionHypothesis sent.1
      have lastCorrelated := id_lastResponse_concat exchanges exchange
      rw [← sent.2] at lastCorrelated
      constructor
      · simp only [List.mem_append, List.mem_singleton, List.map_append,
          List.map_cons, List.map_nil, quitsRepeat_concat, Option.or_none,
          or_imp, forall_and, forall_eq, lastCorrelated]
        constructor
        · rintro ⟨all, last⟩
          refine ⟨correlated.mp all, fun quits => ?_⟩
          rw [← lastId all]
          exact last quits
        · rintro ⟨repeats, last⟩
          have all := correlated.mpr repeats
          refine ⟨all, fun quits => ?_⟩
          rw [lastId all]
          exact last quits
      · intro all
        have lastSent := all exchange (by simp)
        rw [sent.2] at lastSent
        simpa [lastResponse] using lastSent

/-- Every reply of a session carries the id of its command exactly if every
quit command it processed came right after a command with the same id. -/
theorem ids_correlated_iff_quits_repeat
    {exitOnQuit : Bool}
    {events : List SessionEvent}
    {session : Session}
    (performed : run exitOnQuit events = some session) :
    (∀ exchange ∈ session.exchanges,
        exchange.response.id_ = some exchange.command.id) ↔
      QuitsRepeat none (session.exchanges.map Exchange.command) :=
  (ids_correlated (recorded_run performed).sent).1

/-- The commands of the client, with an id. -/
def statusCommand (value : Int32) : Command :=
  .of value (ascii ['s', 't', 'a', 't', 'u', 's'])

def startCommand (value : Int32) : Command :=
  .of value (ascii ['s', 't', 'a', 'r', 't'])

def quitCommand (value : Int32) : Command :=
  .of value (ascii ['q', 'u', 'i', 't'])

/-- The reply to a quit command carries the id of the command before it. -/
theorem quit_reply_repeats_id :
    ¬ ∀ exitOnQuit events session,
      run exitOnQuit events = some session →
        ∀ exchange ∈ session.exchanges,
          exchange.response.id_ = some exchange.command.id := by
  intro claim
  have correlated :=
    claim true
      [.start, .push (statusCommand 1), .push (quitCommand 2), .doWork, .doWork]
      _ rfl
  exact absurd correlated (by decide)

/-- A quit command under the id of the command before it is answered under its
own id. -/
theorem ids_correlated_iff_quits_repeat_same_id :
    ∃ session,
      run true
          [.start, .push (statusCommand 1), .push (quitCommand 1), .doWork,
            .doWork] = some session ∧
        ∀ exchange ∈ session.exchanges,
          exchange.response.id_ = some exchange.command.id := by
  refine ⟨_, rfl, ?_⟩
  refine (@ids_correlated_iff_quits_repeat true
    [.start, .push (statusCommand 1), .push (quitCommand 1), .doWork, .doWork]
    _ rfl).mpr ?_
  exact ⟨fun quits => absurd quits (by decide), fun _ => rfl, trivial⟩

/-! ## Two histories -/

/-- Where the last command does not write a field, the two histories wrote the
same value to it last, or neither wrote it. -/
structure AgreeOnUnwritten
    (last : Exchange)
    (first second : List Exchange) : Prop where
  id : last.writesId = none →
    lastWrite writesId first = lastWrite writesId second
  success : last.writesSuccess = none →
    lastWrite writesSuccess first = lastWrite writesSuccess second
  status : last.writesStatus = none →
    lastWrite writesStatus first = lastWrite writesStatus second
  contactRadius : last.writesContactRadius = none →
    lastWrite writesContactRadius first = lastWrite writesContactRadius second
  centerPoint : last.writesCenterPoint = none →
    lastWrite writesCenterPoint first = lastWrite writesCenterPoint second

/-- The last replies of two sessions that end with the same command, under the
same latest result, are equal exactly if the histories agree on every field the
command does not write. -/
theorem reply_eq_iff_agree_on_unwritten
    {firstQuits secondQuits : Bool}
    {firstEvents secondEvents : List SessionEvent}
    {first second : Session}
    {firstEarlier secondEarlier : List Exchange}
    {firstLast secondLast : Exchange}
    (firstRun : run firstQuits firstEvents = some first)
    (secondRun : run secondQuits secondEvents = some second)
    (firstEnds : first.exchanges = firstEarlier ++ [firstLast])
    (secondEnds : second.exchanges = secondEarlier ++ [secondLast])
    (sameCommand : firstLast.command = secondLast.command)
    (sameLatest : firstLast.latestResult = secondLast.latestResult) :
    firstLast.response = secondLast.response ↔
      AgreeOnUnwritten firstLast firstEarlier secondEarlier := by
  have sameWrites :
      secondLast.writesId = firstLast.writesId ∧
        secondLast.writesSuccess = firstLast.writesSuccess ∧
        secondLast.writesStatus = firstLast.writesStatus ∧
        secondLast.writesContactRadius = firstLast.writesContactRadius ∧
        secondLast.writesCenterPoint = firstLast.writesCenterPoint := by
    unfold writesId writesSuccess writesStatus writesContactRadius
      writesCenterPoint
    rw [sameCommand, sameLatest]
    exact ⟨rfl, rfl, rfl, rfl, rfl⟩
  obtain ⟨sameId, sameSuccess, sameStatus, sameContactRadius, sameCenterPoint⟩ :=
    sameWrites
  rw [(recorded_run firstRun).sent firstEarlier firstLast [] firstEnds,
    (recorded_run secondRun).sent secondEarlier secondLast [] secondEnds,
    lastResponse_inj]
  simp only [lastResult, ResponseResult.mk.injEq, storedCenterPoint_inj,
    lastWrite_concat, sameId, sameSuccess, sameStatus, sameContactRadius,
    sameCenterPoint, or_right_inj]
  constructor
  · rintro ⟨id, success, status, contactRadius, centerPoint⟩
    exact ⟨id, success, status, contactRadius, centerPoint⟩
  · rintro ⟨id, success, status, contactRadius, centerPoint⟩
    exact ⟨id, success, status, contactRadius, centerPoint⟩

/-- A reply to a status command has a success value if a start command came
before, and none otherwise. -/
theorem status_reply_depends_on_start :
    ∃ first second,
      run true
          [.start, .push (startCommand 1), .push (statusCommand 2), .doWork,
            .doWork] = some first ∧
        run true [.start, .push (statusCommand 2), .doWork] = some second ∧
        (first.exchanges.getLast?.map fun exchange =>
            (exchange.command, exchange.latestResult)) =
          (second.exchanges.getLast?.map fun exchange =>
            (exchange.command, exchange.latestResult)) ∧
        (first.exchanges.getLast?.map Exchange.response) ≠
          (second.exchanges.getLast?.map Exchange.response) :=
  ⟨_, _, rfl, rfl, by decide, by decide⟩

/-- Earlier status commands make no difference to the reply to one. -/
theorem reply_eq_iff_agree_on_unwritten_status :
    ∃ first second firstLast secondLast,
      run true
          [.start, .push (statusCommand 1), .push (statusCommand 2), .doWork,
            .doWork] = some first ∧
        run true [.start, .push (statusCommand 2), .doWork] = some second ∧
        first.exchanges.getLast? = some firstLast ∧
        second.exchanges.getLast? = some secondLast ∧
        firstLast.response = secondLast.response := by
  refine ⟨_, _, _, _, rfl, rfl, rfl, rfl, ?_⟩
  refine (@reply_eq_iff_agree_on_unwritten true true
    [.start, .push (statusCommand 1), .push (statusCommand 2), .doWork, .doWork]
    [.start, .push (statusCommand 2), .doWork] _ _ [_] [] _ _ rfl rfl rfl rfl
    rfl rfl).mpr ?_
  exact ⟨by decide, by decide, by decide, by decide, by decide⟩

end Session
end ProtobufSandbox
