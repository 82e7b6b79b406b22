import ProtobufSandbox.Protocol.Payload

/-!
# The command processor

`CommandProcessor` queues the commands its receive callback parses, and answers
them one by one with a response object it keeps from one command to the next.
Its operations are functions of the object; a call that would use a null command
has no result.
-/

namespace ProtobufSandbox

/-- The fields of `CommandProcessor` its commands read and write. -/
structure CommandProcessor where
  running : Bool
  exitOnQuit : Bool
  cmdFIFO : List Command
  latestResult : ResponseResult
  response : Response
  deriving DecidableEq

/-- The answer of `processCommands`, the object after it, and the command it
popped with the response it handed to `sendData`, if any. -/
structure Processed where
  returns : Bool
  processor : CommandProcessor
  answered : Option (Command × Response)

namespace CommandProcessor

/-- The constructor, with the configured `exit_on_quit`. -/
def new (exitOnQuit : Bool) : CommandProcessor where
  running := false
  exitOnQuit := exitOnQuit
  cmdFIFO := []
  latestResult := .empty
  response := .empty

/-- Once its threads run. -/
def start (processor : CommandProcessor) : CommandProcessor :=
  { processor with running := true }

/-- Stop before the threads are joined. -/
def shutdown (processor : CommandProcessor) : CommandProcessor :=
  { processor with running := false }

/-- One turn of the worker thread; the values are its three random numbers. -/
def programLoop
    (processor : CommandProcessor)
    (contactRadius centerX centerY : UInt64) : CommandProcessor :=
  { processor with
    latestResult :=
      ((processor.latestResult.setContactRadius contactRadius).setCenterPoint 0
        centerX).setCenterPoint 1 centerY }

/-- The critical section of `recvCBRoutine`. -/
def pushBack
    (processor : CommandProcessor)
    (cmd : Command) : CommandProcessor :=
  { processor with cmdFIFO := processor.cmdFIFO ++ [cmd] }

/-- The receive callback; `parseFromString` is the parser of the generated
class. -/
def recvCBRoutine
    (parseFromString : Bytes → Command)
    (processor : CommandProcessor)
    (strCBMsg : Bytes) : CommandProcessor :=
  processor.pushBack (parseFromString strCBMsg)

/-- The body of `processCommands` between the pop and the serialisation. -/
def executeCommand
    (processor : CommandProcessor)
    (newCmd : Command) : CommandProcessor :=
  let response :=
    if newCmd.byteSize = 0 then
      (processor.response.setId newCmd.id).mutableResult (·.setSuccess .false)
    else processor.response
  let checked := { processor with response := response }
  if contains newCmd.method (ascii ['q', 'u', 'i', 't']) then
    if checked.exitOnQuit then { checked with running := false } else checked
  else if contains newCmd.method (ascii ['s', 't', 'a', 't', 'u', 's']) then
    { checked with
      response :=
        (checked.response.setId newCmd.id).mutableResult (·.setStatus .ok) }
  else if contains newCmd.method (ascii ['s', 't', 'a', 'r', 't']) then
    { checked with
      response :=
        (checked.response.setId newCmd.id).mutableResult (·.setSuccess .true) }
  else if contains newCmd.method (ascii ['s', 't', 'o', 'p']) then
    { checked with
      response :=
        (checked.response.setId newCmd.id).mutableResult (·.setSuccess .true) }
  else if contains newCmd.method (ascii ['q', 'u', 'e', 'r', 'y']) then
    { checked with
      response :=
        (((checked.response.setId newCmd.id).mutableResult
          (·.setContactRadius checked.latestResult.contactRadius)).mutableResult
          (·.setCenterPoint 0 (checked.latestResult.centerPoint 0))).mutableResult
          (·.setCenterPoint 1 (checked.latestResult.centerPoint 1)) }
  else
    { checked with
      response :=
        (checked.response.setId newCmd.id).mutableResult (·.setSuccess .false) }

/-- Answer the first command of the queue. With an empty queue the code goes on
with a null command, and there is no result. -/
def processCommands (processor : CommandProcessor) : Option Processed :=
  if processor.running = false then
    some { returns := false, processor := processor, answered := none }
  else
    match processor.cmdFIFO with
    | [] => none
    | newCmd :: rest =>
        let executed :=
          ({ processor with cmdFIFO := rest } : CommandProcessor).executeCommand
            newCmd
        some
          { returns := true
            processor := executed
            answered := some (newCmd, executed.response) }

/-- One turn of the main loop. -/
def doWork (processor : CommandProcessor) : Option Processed :=
  if processor.running then processor.processCommands
  else some { returns := false, processor := processor, answered := none }

/-! ## What a command changes -/

/-- The branch of `processCommands` a command takes. -/
inductive Branch
  | quit
  | status
  | start
  | stop
  | query
  | other
  deriving DecidableEq

/-- The first of the words the method contains selects the branch. -/
def branchOf (newCmd : Command) : Branch :=
  if contains newCmd.method (ascii ['q', 'u', 'i', 't']) then .quit
  else if contains newCmd.method (ascii ['s', 't', 'a', 't', 'u', 's']) then
    .status
  else if contains newCmd.method (ascii ['s', 't', 'a', 'r', 't']) then .start
  else if contains newCmd.method (ascii ['s', 't', 'o', 'p']) then .stop
  else if contains newCmd.method (ascii ['q', 'u', 'e', 'r', 'y']) then .query
  else .other

/-- A command without fields has an empty method. -/
theorem method_of_byteSize
    {newCmd : Command}
    (empty : newCmd.byteSize = 0) :
    newCmd.method = [] := by
  have fields := (Command.byteSize_eq_zero_iff newCmd).mp empty
  rw [Command.method, fields.2]
  rfl

/-- A command without fields takes the last branch. -/
theorem branchOf_of_byteSize
    {newCmd : Command}
    (empty : newCmd.byteSize = 0) :
    branchOf newCmd = .other := by
  rw [branchOf, method_of_byteSize empty]
  decide

/-- The response a command leaves, by its branch. -/
def respond
    (newCmd : Command)
    (latestResult : ResponseResult)
    (response : Response) : Response :=
  match branchOf newCmd with
  | .quit => response
  | .status => (response.setId newCmd.id).mutableResult (·.setStatus .ok)
  | .start | .stop =>
      (response.setId newCmd.id).mutableResult (·.setSuccess .true)
  | .query =>
      (response.setId newCmd.id).mutableResult fun result =>
        ((result.setContactRadius latestResult.contactRadius).setCenterPoint 0
          (latestResult.centerPoint 0)).setCenterPoint 1
          (latestResult.centerPoint 1)
  | .other => (response.setId newCmd.id).mutableResult (·.setSuccess .false)

/-- Executing a command changes the response by its branch, and clears the
running flag only for a quit command that is to be obeyed. -/
theorem executeCommand_eq
    (processor : CommandProcessor)
    (newCmd : Command) :
    processor.executeCommand newCmd =
      { processor with
        running :=
          processor.running &&
            !(branchOf newCmd = .quit && processor.exitOnQuit)
        response :=
          respond newCmd processor.latestResult processor.response } := by
  by_cases empty : newCmd.byteSize = 0
  · have branch := branchOf_of_byteSize empty
    have method := method_of_byteSize empty
    unfold executeCommand respond
    rw [branch, if_pos empty, method]
    simp [contains, ascii, Response.setId, Response.mutableResult,
      ResponseResult.setSuccess]
  · unfold executeCommand respond branchOf
    rw [if_neg empty]
    split
    · cases processor.exitOnQuit <;> simp
    · split
      · simp
      · split
        · simp
        · split
          · simp
          · split
            · simp [Response.mutableResult]
            · simp

end CommandProcessor
end ProtobufSandbox
