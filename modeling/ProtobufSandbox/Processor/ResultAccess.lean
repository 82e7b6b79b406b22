import ProtobufSandbox.Foundation.TransitionSystem
import ProtobufSandbox.Processor.CommandProcessor

/-!
# Access to the latest result

The `programLoop` thread writes `m_latestResult` field by field, and the handler
of a query command reads it field by field into the response, each inside the
mutex of the results. A step moves one thread by one action, so that a run is an
interleaving. The elements of a center point are written and read by index, but
nothing ever adds an element, so every such access is out of range.
-/

namespace ProtobufSandbox

/-- The threads that use the latest result. -/
inductive ResultsThread
  | main
  | program
  deriving DecidableEq

/-- Where the worker thread stands in `programLoop`, with the random numbers it
still has to write. -/
inductive ProgramAt
  | idle
  | lock (contactRadius centerX centerY : UInt64)
  | setContactRadius (contactRadius centerX centerY : UInt64)
  | setCenterPoint (index : Nat) (centerX centerY : UInt64)
  | unlock
  deriving DecidableEq

/-- Where the main thread stands in `processCommands` after the pop; the actions
from `lock` to `unlock` are those of the handler of a query command. -/
inductive AnswerAt
  | idle
  | execute (newCmd : Command)
  | lock (newCmd : Command)
  | setContactRadius (newCmd : Command)
  | centerPoint (newCmd : Command) (index : Nat)
  | setCenterPoint (newCmd : Command) (index : Nat) (value : UInt64)
  | unlock (newCmd : Command)
  | sendData (newCmd : Command)
  deriving DecidableEq

/-- A call of `center_point` or `set_center_point`: its index, and the
`center_point_size` of the message at that moment. -/
structure CenterPointAccess where
  index : Nat
  size : Nat
  deriving DecidableEq

/-- The processor, the mutex of the results and both threads, with the accesses
made and the commands answered so far. -/
structure ResultState where
  processor : CommandProcessor
  workingResultsMutex : Option ResultsThread
  program : ProgramAt
  main : AnswerAt
  accesses : List CenterPointAccess
  answered : List (Command × Response)
  deriving DecidableEq

/-- The actions: what other code does to the processor, a call of `programLoop`
with its random numbers and the next action in it, a call of `processCommands`
and the next action in it. -/
inductive ResultAction
  | start
  | shutdown
  | push (cmd : Command)
  | programLoop (contactRadius centerX centerY : UInt64)
  | program
  | processCommands
  | main
  deriving DecidableEq

namespace ResultState

open CommandProcessor

/-- A constructed processor. -/
def new (exitOnQuit : Bool) : ResultState where
  processor := .new exitOnQuit
  workingResultsMutex := none
  program := .idle
  main := .idle
  accesses := []
  answered := []

/-- The `center_point_size` of the latest result. -/
def latestSize (state : ResultState) : Nat :=
  state.processor.latestResult.centerPoint_.size

/-- The `center_point_size` of the result of the response, which
`mutable_result` creates if there is none. -/
def responseSize (state : ResultState) : Nat :=
  (state.processor.response.result_.getD .empty).centerPoint_.size

/-- The next action of the worker thread. -/
def programStep (state : ResultState) : Option ResultState :=
  match state.program with
  | .idle => none
  | .lock contactRadius centerX centerY =>
      if state.workingResultsMutex = none then
        some
          { state with
            workingResultsMutex := some .program
            program := .setContactRadius contactRadius centerX centerY }
      else none
  | .setContactRadius contactRadius centerX centerY =>
      some
        { state with
          processor :=
            { state.processor with
              latestResult :=
                state.processor.latestResult.setContactRadius contactRadius }
          program := .setCenterPoint 0 centerX centerY }
  | .setCenterPoint index centerX centerY =>
      some
        { state with
          processor :=
            { state.processor with
              latestResult :=
                state.processor.latestResult.setCenterPoint index
                  (if index = 0 then centerX else centerY) }
          program :=
            if index = 0 then .setCenterPoint 1 centerX centerY else .unlock
          accesses :=
            state.accesses ++ [{ index := index, size := state.latestSize }] }
  | .unlock => some { state with workingResultsMutex := none, program := .idle }

/-- The next action of the main thread inside `processCommands`. -/
def mainStep (state : ResultState) : Option ResultState :=
  match state.main with
  | .idle => none
  | .execute newCmd =>
      if branchOf newCmd = .query then
        some
          { state with
            processor :=
              { state.processor with
                response := state.processor.response.setId newCmd.id }
            main := .lock newCmd }
      else
        some
          { state with
            processor := state.processor.executeCommand newCmd
            main := .sendData newCmd }
  | .lock newCmd =>
      if state.workingResultsMutex = none then
        some
          { state with
            workingResultsMutex := some .main
            main := .setContactRadius newCmd }
      else none
  | .setContactRadius newCmd =>
      some
        { state with
          processor :=
            { state.processor with
              response :=
                state.processor.response.mutableResult
                  (·.setContactRadius
                    state.processor.latestResult.contactRadius) }
          main := .centerPoint newCmd 0 }
  | .centerPoint newCmd index =>
      some
        { state with
          main :=
            .setCenterPoint newCmd index
              (state.processor.latestResult.centerPoint index)
          accesses :=
            state.accesses ++ [{ index := index, size := state.latestSize }] }
  | .setCenterPoint newCmd index value =>
      some
        { state with
          processor :=
            { state.processor with
              response :=
                state.processor.response.mutableResult
                  (·.setCenterPoint index value) }
          main :=
            if index = 0 then .centerPoint newCmd 1 else .unlock newCmd
          accesses :=
            state.accesses ++ [{ index := index, size := state.responseSize }] }
  | .unlock newCmd =>
      some
        { state with workingResultsMutex := none, main := .sendData newCmd }
  | .sendData newCmd =>
      some
        { state with
          main := .idle
          answered := state.answered ++ [(newCmd, state.processor.response)] }

/-- One action. A call of `processCommands` with an empty queue goes on with a
null command and has no next state. -/
def step (state : ResultState) (action : ResultAction) : Option ResultState :=
  match action with
  | .start => some { state with processor := state.processor.start }
  | .shutdown => some { state with processor := state.processor.shutdown }
  | .push cmd => some { state with processor := state.processor.pushBack cmd }
  | .programLoop contactRadius centerX centerY =>
      if state.program = .idle then
        some { state with program := .lock contactRadius centerX centerY }
      else none
  | .program => state.programStep
  | .processCommands =>
      if state.main = .idle then
        if state.processor.running then
          match state.processor.cmdFIFO with
          | [] => none
          | newCmd :: rest =>
              some
                { state with
                  processor := { state.processor with cmdFIFO := rest }
                  main := .execute newCmd }
        else some state
      else none
  | .main => state.mainStep

/-! ## The steps of both threads -/

/-- What an action of the worker thread does. -/
inductive ProgramMoves (state : ResultState) : ResultState → Prop
  | lock (contactRadius centerX centerY : UInt64)
      (here : state.program = .lock contactRadius centerX centerY)
      (free : state.workingResultsMutex = none) :
      ProgramMoves state
        { state with
          workingResultsMutex := some .program
          program := .setContactRadius contactRadius centerX centerY }
  | setContactRadius (contactRadius centerX centerY : UInt64)
      (here : state.program = .setContactRadius contactRadius centerX centerY) :
      ProgramMoves state
        { state with
          processor :=
            { state.processor with
              latestResult :=
                state.processor.latestResult.setContactRadius contactRadius }
          program := .setCenterPoint 0 centerX centerY }
  | setCenterPoint (index : Nat) (centerX centerY : UInt64)
      (here : state.program = .setCenterPoint index centerX centerY) :
      ProgramMoves state
        { state with
          processor :=
            { state.processor with
              latestResult :=
                state.processor.latestResult.setCenterPoint index
                  (if index = 0 then centerX else centerY) }
          program :=
            if index = 0 then .setCenterPoint 1 centerX centerY else .unlock
          accesses :=
            state.accesses ++ [{ index := index, size := state.latestSize }] }
  | unlock (here : state.program = .unlock) :
      ProgramMoves state { state with workingResultsMutex := none, program := .idle }

theorem programMoves_of_programStep
    {state next : ResultState}
    (stepped : state.programStep = some next) :
    state.ProgramMoves next := by
  unfold programStep at stepped
  cases here : state.program with
  | idle => simp [here] at stepped
  | lock contactRadius centerX centerY =>
      simp only [here, Option.ite_none_right_eq_some, Option.some.injEq] at stepped
      obtain ⟨free, rfl⟩ := stepped
      exact .lock contactRadius centerX centerY here free
  | setContactRadius contactRadius centerX centerY =>
      simp only [here, Option.some.injEq] at stepped
      subst stepped
      exact .setContactRadius contactRadius centerX centerY here
  | setCenterPoint index centerX centerY =>
      simp only [here, Option.some.injEq] at stepped
      subst stepped
      exact .setCenterPoint index centerX centerY here
  | unlock =>
      simp only [here, Option.some.injEq] at stepped
      subst stepped
      exact .unlock here

/-- What an action of the main thread does. -/
inductive MainMoves (state : ResultState) : ResultState → Prop
  | executeQuery (newCmd : Command)
      (here : state.main = .execute newCmd) :
      MainMoves state
        { state with
          processor :=
            { state.processor with
              response := state.processor.response.setId newCmd.id }
          main := .lock newCmd }
  | executeOther (newCmd : Command)
      (here : state.main = .execute newCmd)
      (other : branchOf newCmd ≠ .query) :
      MainMoves state
        { state with
          processor := state.processor.executeCommand newCmd
          main := .sendData newCmd }
  | lock (newCmd : Command)
      (here : state.main = .lock newCmd)
      (free : state.workingResultsMutex = none) :
      MainMoves state
        { state with
          workingResultsMutex := some .main
          main := .setContactRadius newCmd }
  | setContactRadius (newCmd : Command)
      (here : state.main = .setContactRadius newCmd) :
      MainMoves state
        { state with
          processor :=
            { state.processor with
              response :=
                state.processor.response.mutableResult
                  (·.setContactRadius state.processor.latestResult.contactRadius) }
          main := .centerPoint newCmd 0 }
  | centerPoint (newCmd : Command) (index : Nat)
      (here : state.main = .centerPoint newCmd index) :
      MainMoves state
        { state with
          main :=
            .setCenterPoint newCmd index (state.processor.latestResult.centerPoint index)
          accesses :=
            state.accesses ++ [{ index := index, size := state.latestSize }] }
  | setCenterPoint (newCmd : Command) (index : Nat) (value : UInt64)
      (here : state.main = .setCenterPoint newCmd index value) :
      MainMoves state
        { state with
          processor :=
            { state.processor with
              response :=
                state.processor.response.mutableResult (·.setCenterPoint index value) }
          main := if index = 0 then .centerPoint newCmd 1 else .unlock newCmd
          accesses :=
            state.accesses ++ [{ index := index, size := state.responseSize }] }
  | unlock (newCmd : Command)
      (here : state.main = .unlock newCmd) :
      MainMoves state
        { state with workingResultsMutex := none, main := .sendData newCmd }
  | sendData (newCmd : Command)
      (here : state.main = .sendData newCmd) :
      MainMoves state
        { state with
          main := .idle
          answered := state.answered ++ [(newCmd, state.processor.response)] }

theorem mainMoves_of_mainStep
    {state next : ResultState}
    (stepped : state.mainStep = some next) :
    state.MainMoves next := by
  unfold mainStep at stepped
  cases here : state.main with
  | idle => simp [here] at stepped
  | execute newCmd =>
      simp only [here] at stepped
      by_cases query : branchOf newCmd = .query
      · simp only [if_pos query, Option.some.injEq] at stepped
        subst stepped
        exact .executeQuery newCmd here
      · simp only [if_neg query, Option.some.injEq] at stepped
        subst stepped
        exact .executeOther newCmd here query
  | lock newCmd =>
      simp only [here, Option.ite_none_right_eq_some, Option.some.injEq] at stepped
      obtain ⟨free, rfl⟩ := stepped
      exact .lock newCmd here free
  | setContactRadius newCmd =>
      simp only [here, Option.some.injEq] at stepped
      subst stepped
      exact .setContactRadius newCmd here
  | centerPoint newCmd index =>
      simp only [here, Option.some.injEq] at stepped
      subst stepped
      exact .centerPoint newCmd index here
  | setCenterPoint newCmd index value =>
      simp only [here, Option.some.injEq] at stepped
      subst stepped
      exact .setCenterPoint newCmd index value here
  | unlock newCmd =>
      simp only [here, Option.some.injEq] at stepped
      subst stepped
      exact .unlock newCmd here
  | sendData newCmd =>
      simp only [here, Option.some.injEq] at stepped
      subst stepped
      exact .sendData newCmd here

/-! ## Sizes -/

/-- Neither message has an element in its center point. -/
structure Unsized (state : ResultState) : Prop where
  latest : state.latestSize = 0
  response : state.responseSize = 0

/-- Every access was made with an index below the size of the message. -/
def InRange (state : ResultState) : Prop :=
  ∀ access ∈ state.accesses, access.index < access.size

/-- The next action of the worker thread accesses an element. -/
def accessInProgram (state : ResultState) : Bool :=
  match state.program with
  | .setCenterPoint _ _ _ => true
  | .idle | .lock _ _ _ | .setContactRadius _ _ _ | .unlock => false

/-- The next action of the main thread accesses an element. -/
def accessInMain (state : ResultState) : Bool :=
  match state.main with
  | .centerPoint _ _ | .setCenterPoint _ _ _ => true
  | .idle | .execute _ | .lock _ | .setContactRadius _ | .unlock _
  | .sendData _ => false

/-- The action is no call of `center_point` or `set_center_point`. -/
def MakesNoAccess (state : ResultState) : ResultAction → Prop
  | .program => state.accessInProgram = false
  | .main => state.accessInMain = false
  | .start | .shutdown | .push _ | .programLoop _ _ _ | .processCommands => True

instance MakesNoAccess.decidable (state : ResultState) :
    ∀ action, Decidable (state.MakesNoAccess action)
  | .program => inferInstanceAs (Decidable (_ = false))
  | .main => inferInstanceAs (Decidable (_ = false))
  | .start => isTrue trivial
  | .shutdown => isTrue trivial
  | .push _ => isTrue trivial
  | .programLoop _ _ _ => isTrue trivial
  | .processCommands => isTrue trivial

/-- A change of the result that adds no element adds none to the response. -/
theorem size_mutableResult
    {response : Response}
    {change : ResponseResult → ResponseResult}
    (same : ∀ result,
      (change result).centerPoint_.size = result.centerPoint_.size) :
    ((response.mutableResult change).result_.getD .empty).centerPoint_.size =
      (response.result_.getD .empty).centerPoint_.size :=
  same _

/-- Answering a command adds no element to the center point of the response. -/
theorem size_respond
    (newCmd : Command)
    (latestResult : ResponseResult)
    (response : Response) :
    ((respond newCmd latestResult response).result_.getD .empty).centerPoint_.size =
      (response.result_.getD .empty).centerPoint_.size := by
  unfold respond
  cases branchOf newCmd with
  | quit => rfl
  | status => exact size_mutableResult fun result => rfl
  | start => exact size_mutableResult fun result => rfl
  | stop => exact size_mutableResult fun result => rfl
  | query => exact size_mutableResult fun result => rfl
  | other => exact size_mutableResult fun result => rfl

/-- What an action does to the sizes and the accesses: it adds no element, and
either makes no access or makes one to a message without elements. -/
structure Effect (state next : ResultState) (action : ResultAction) : Prop where
  unsized : next.Unsized
  accesses :
    (state.MakesNoAccess action ∧ next.accesses = state.accesses) ∨
      (¬ state.MakesNoAccess action ∧
        ∃ index, next.accesses = state.accesses ++ [{ index := index, size := 0 }])

/-- The worker thread adds no element. -/
theorem Unsized.programStep
    {state next : ResultState}
    (unsized : state.Unsized)
    (stepped : state.programStep = some next) :
    state.Effect next .program := by
  cases programMoves_of_programStep stepped with
  | lock contactRadius centerX centerY here free =>
      exact ⟨⟨unsized.latest, unsized.response⟩,
        .inl ⟨by simp [MakesNoAccess, accessInProgram, here], rfl⟩⟩
  | setContactRadius contactRadius centerX centerY here =>
      exact ⟨⟨unsized.latest, unsized.response⟩,
        .inl ⟨by simp [MakesNoAccess, accessInProgram, here], rfl⟩⟩
  | setCenterPoint index centerX centerY here =>
      refine ⟨⟨unsized.latest, unsized.response⟩,
        .inr ⟨by simp [MakesNoAccess, accessInProgram, here], index, ?_⟩⟩
      rw [unsized.latest]
  | unlock here =>
      exact ⟨⟨unsized.latest, unsized.response⟩,
        .inl ⟨by simp [MakesNoAccess, accessInProgram, here], rfl⟩⟩

/-- The main thread adds no element. -/
theorem Unsized.mainStep
    {state next : ResultState}
    (unsized : state.Unsized)
    (stepped : state.mainStep = some next) :
    state.Effect next .main := by
  cases mainMoves_of_mainStep stepped with
  | executeQuery newCmd here =>
      exact ⟨⟨unsized.latest, unsized.response⟩,
        .inl ⟨by simp [MakesNoAccess, accessInMain, here], rfl⟩⟩
  | executeOther newCmd here other =>
      rw [executeCommand_eq]
      exact ⟨⟨unsized.latest, (size_respond _ _ _).trans unsized.response⟩,
        .inl ⟨by simp [MakesNoAccess, accessInMain, here], rfl⟩⟩
  | lock newCmd here free =>
      exact ⟨⟨unsized.latest, unsized.response⟩,
        .inl ⟨by simp [MakesNoAccess, accessInMain, here], rfl⟩⟩
  | setContactRadius newCmd here =>
      exact ⟨⟨unsized.latest, unsized.response⟩,
        .inl ⟨by simp [MakesNoAccess, accessInMain, here], rfl⟩⟩
  | centerPoint newCmd index here =>
      refine ⟨⟨unsized.latest, unsized.response⟩,
        .inr ⟨by simp [MakesNoAccess, accessInMain, here], index, ?_⟩⟩
      rw [unsized.latest]
  | setCenterPoint newCmd index value here =>
      refine ⟨⟨unsized.latest, unsized.response⟩,
        .inr ⟨by simp [MakesNoAccess, accessInMain, here], index, ?_⟩⟩
      rw [unsized.response]
  | unlock newCmd here =>
      exact ⟨⟨unsized.latest, unsized.response⟩,
        .inl ⟨by simp [MakesNoAccess, accessInMain, here], rfl⟩⟩
  | sendData newCmd here =>
      exact ⟨⟨unsized.latest, unsized.response⟩,
        .inl ⟨by simp [MakesNoAccess, accessInMain, here], rfl⟩⟩

/-- No action adds an element. -/
theorem Unsized.step
    {state next : ResultState}
    {action : ResultAction}
    (unsized : state.Unsized)
    (stepped : state.step action = some next) :
    state.Effect next action := by
  cases action with
  | start =>
      obtain rfl := Option.some.inj stepped
      exact ⟨⟨unsized.latest, unsized.response⟩, .inl ⟨trivial, rfl⟩⟩
  | shutdown =>
      obtain rfl := Option.some.inj stepped
      exact ⟨⟨unsized.latest, unsized.response⟩, .inl ⟨trivial, rfl⟩⟩
  | push cmd =>
      obtain rfl := Option.some.inj stepped
      exact ⟨⟨unsized.latest, unsized.response⟩, .inl ⟨trivial, rfl⟩⟩
  | programLoop contactRadius centerX centerY =>
      obtain ⟨-, called⟩ := Option.ite_none_right_eq_some.mp stepped
      obtain rfl := Option.some.inj called
      exact ⟨⟨unsized.latest, unsized.response⟩, .inl ⟨trivial, rfl⟩⟩
  | program => exact unsized.programStep stepped
  | main => exact unsized.mainStep stepped
  | processCommands =>
      obtain ⟨-, called⟩ := Option.ite_none_right_eq_some.mp stepped
      split at called
      · cases queue : state.processor.cmdFIFO with
        | nil => simp [queue] at called
        | cons newCmd rest =>
            simp only [queue, Option.some.injEq] at called
            subst called
            exact ⟨⟨unsized.latest, unsized.response⟩, .inl ⟨trivial, rfl⟩⟩
      · obtain rfl := Option.some.inj called
        exact ⟨unsized, .inl ⟨trivial, rfl⟩⟩

/-- Along every interleaving, the accesses are in range exactly as long as none
is made. -/
theorem inRange_along_iff
    {exitOnQuit : Bool}
    {actions : List ResultAction}
    {final : ResultState}
    (performed :
      TransitionSystem.run step (new exitOnQuit) actions = some final) :
    TransitionSystem.Along step InRange (new exitOnQuit) actions ↔
      TransitionSystem.Guarded step MakesNoAccess (new exitOnQuit) actions := by
  have preserved (state : ResultState) (action : ResultAction)
      (next : ResultState) (unsized : state.Unsized)
      (stepped : state.step action = some next) : next.Unsized :=
    (unsized.step stepped).unsized
  have exactly (state : ResultState) (action : ResultAction)
      (next : ResultState) (unsized : state.Unsized) (inRange : state.InRange)
      (stepped : state.step action = some next) :
      next.InRange ↔ state.MakesNoAccess action := by
    cases (unsized.step stepped).accesses with
    | inl without =>
        obtain ⟨noAccess, same⟩ := without
        unfold InRange
        rw [same]
        exact iff_of_true inRange noAccess
    | inr outOfRange =>
        obtain ⟨accessed, index, added⟩ := outOfRange
        refine iff_of_false (fun nextInRange => ?_) accessed
        have last := nextInRange { index := index, size := 0 } (by simp [added])
        exact Nat.not_lt_zero index last
  have initially : (new exitOnQuit).InRange :=
    fun access present => absurd present List.not_mem_nil
  exact TransitionSystem.along_iff_guarded preserved exactly ⟨rfl, rfl⟩ initially
    performed

/-- A run in which a stop command is answered makes no access. -/
theorem inRange_along_stop :
    TransitionSystem.Along step InRange (new true)
      [.start,
        .push { id_ := some 1, method_ := some (ascii ['s', 't', 'o', 'p']) },
        .processCommands, .main, .main] :=
  (inRange_along_iff rfl).mpr (by decide)

/-- The first turn of the worker thread stores a coordinate at index zero of a
center point without elements. -/
theorem not_inRange_along_programLoop :
    ¬ TransitionSystem.Along step InRange (new true)
      [.programLoop 1 2 3, .program, .program, .program] := by
  intro along
  have last := ((((along.2 _ rfl).2 _ rfl).2 _ rfl).2 _ rfl)
  exact absurd (last { index := 0, size := 0 } (by decide)) (by decide)

end ResultState
end ProtobufSandbox
