import ProtobufSandbox.Processor.ResultAccess

/-!
# Samples in the replies to queries

A turn of `programLoop` writes a contact radius and two coordinates, and the handler of
a query copies them. An observer of a run notes the numbers of each turn that is over.
Only one thread at a time is between its lock and its unlock, so that what a reply has
is what one turn wrote, or what was there before the first one.
-/

namespace ProtobufSandbox

/-! ## Samples -/

/-- A contact radius with the coordinates of a center point. -/
structure Sample where
  contactRadius : UInt64
  centerX : UInt64
  centerY : UInt64
  deriving DecidableEq

/-- What is stored at an index is found there, and nothing else changes. -/
theorem RepeatedField.get_set
    (field : RepeatedField)
    (index other : Nat)
    (value : UInt64) :
    (field.set index value).get other = if index = other then value else field.get other := by
  have room : index < (field.elements ++
      List.replicate (index + 1 - field.elements.length) 0).length := by
    rw [List.length_append, List.length_replicate]
    omega
  simp only [set, get, List.getD_eq_getElem?_getD, List.getElem?_set, if_pos room]
  by_cases same : index = other
  · rw [if_pos same, if_pos same]
    rfl
  · rw [if_neg same, if_neg same, List.getElem?_append]
    split
    · rfl
    · next beyond =>
        rw [List.getElem?_replicate, List.getElem?_eq_none (Nat.le_of_not_lt beyond)]
        split <;> rfl

namespace ResponseResult

/-- The sample that a result has. -/
def sample (result : ResponseResult) : Sample :=
  ⟨result.contactRadius, result.centerPoint 0, result.centerPoint 1⟩

@[simp] theorem contactRadius_setContactRadius
    (result : ResponseResult)
    (value : UInt64) :
    (result.setContactRadius value).contactRadius = value := rfl

@[simp] theorem centerPoint_setContactRadius
    (result : ResponseResult)
    (value : UInt64)
    (index : Nat) :
    (result.setContactRadius value).centerPoint index = result.centerPoint index := rfl

@[simp] theorem contactRadius_setCenterPoint
    (result : ResponseResult)
    (index : Nat)
    (value : UInt64) :
    (result.setCenterPoint index value).contactRadius = result.contactRadius := rfl

@[simp] theorem centerPoint_setCenterPoint
    (result : ResponseResult)
    (index other : Nat)
    (value : UInt64) :
    (result.setCenterPoint index value).centerPoint other =
      if index = other then value else result.centerPoint other :=
  result.centerPoint_.get_set index other value

end ResponseResult

/-- The result of a response, which `mutable_result` creates if there is none. -/
def Response.result (response : Response) : ResponseResult :=
  response.result_.getD .empty

@[simp] theorem Response.result_mutableResult
    (response : Response)
    (change : ResponseResult → ResponseResult) :
    (response.mutableResult change).result = change response.result := rfl

/-! ## The observer -/

/-- A run with the numbers that the last call of `programLoop` was made with, and those
of the turns that are over. -/
structure Sampling where
  state : ResultState
  drawn : Sample
  written : List Sample

namespace Sampling

open ResultState CommandProcessor

/-- The sample of a constructed processor. -/
def initialSample : Sample :=
  ResponseResult.empty.sample

def new (exitOnQuit : Bool) : Sampling where
  state := .new exitOnQuit
  drawn := initialSample
  written := []

/-- An action. A turn of `programLoop` is over when it unlocks the mutex. -/
def step (sampling : Sampling) (action : ResultAction) : Option Sampling :=
  (sampling.state.step action).map fun next =>
    { state := next
      drawn :=
        match action with
        | .programLoop contactRadius centerX centerY => ⟨contactRadius, centerX, centerY⟩
        | .start | .shutdown | .push _ | .program | .processCommands | .main =>
            sampling.drawn
      written :=
        if action = .program ∧ sampling.state.program = .unlock then
          sampling.written ++ [sampling.drawn]
        else sampling.written }

/-- The sample before any write, and those that were written. -/
def samples (sampling : Sampling) : List Sample :=
  initialSample :: sampling.written

/-! ## The invariant -/

/-- The worker thread is between its lock and its unlock. -/
def programInside : ProgramAt → Bool
  | .setContactRadius _ _ _ | .setCenterPoint _ _ _ | .unlock => true
  | .idle | .lock _ _ _ => false

/-- The main thread is between its lock and its unlock. -/
def mainInside : AnswerAt → Bool
  | .setContactRadius _ | .centerPoint _ _ | .setCenterPoint _ _ _ | .unlock _ => true
  | .idle | .execute _ | .lock _ | .sendData _ => false

/-- The mutex belongs to the thread that is inside. -/
structure Exclusive (state : ResultState) : Prop where
  program : state.workingResultsMutex = some .program ↔ programInside state.program = true
  main : state.workingResultsMutex = some .main ↔ mainInside state.main = true

/-- What the worker thread has written of its numbers. Outside, the latest result is one
of the samples. -/
def Written (sampling : Sampling) : Prop :=
  let latest := sampling.state.processor.latestResult
  match sampling.state.program with
  | .idle => latest.sample ∈ sampling.samples
  | .lock contactRadius centerX centerY =>
      latest.sample ∈ sampling.samples ∧
        sampling.drawn = ⟨contactRadius, centerX, centerY⟩
  | .setContactRadius contactRadius centerX centerY =>
      sampling.drawn = ⟨contactRadius, centerX, centerY⟩
  | .setCenterPoint index centerX centerY =>
      sampling.drawn = ⟨latest.contactRadius, centerX, centerY⟩ ∧
        (index = 0 ∨ index = 1 ∧ latest.centerPoint 0 = centerX)
  | .unlock => latest.sample = sampling.drawn

/-- What the main thread has copied of the latest result. -/
def Copied (state : ResultState) : Prop :=
  let latest := state.processor.latestResult
  let result := state.processor.response.result
  match state.main with
  | .idle | .execute _ | .lock _ | .setContactRadius _ | .sendData _ => True
  | .centerPoint _ index =>
      result.contactRadius = latest.contactRadius ∧
        (index = 0 ∨ index = 1 ∧ result.centerPoint 0 = latest.centerPoint 0)
  | .setCenterPoint _ index value =>
      result.contactRadius = latest.contactRadius ∧ value = latest.centerPoint index ∧
        (index = 0 ∨ index = 1 ∧ result.centerPoint 0 = latest.centerPoint 0)
  | .unlock _ => result.sample = latest.sample

/-- Replies to queries that are about to be sent, or were sent, have samples. -/
structure Replied (sampling : Sampling) : Prop where
  pending : ∀ newCmd, sampling.state.main = .sendData newCmd →
    branchOf newCmd = .query →
      sampling.state.processor.response.result.sample ∈ sampling.samples
  answered : ∀ answer ∈ sampling.state.answered, branchOf answer.1 = .query →
    answer.2.result.sample ∈ sampling.samples

/-- The invariant of a run. -/
structure Consistent (sampling : Sampling) : Prop where
  exclusive : Exclusive sampling.state
  written : sampling.Written
  copied : Copied sampling.state
  replied : sampling.Replied

section Preserved

variable {sampling : Sampling} {next : ResultState}

/-- Outside the main thread has copied nothing. -/
theorem copied_of_outside
    {state : ResultState}
    (outside : mainInside state.main = false) :
    Copied state := by
  unfold Copied
  cases here : state.main with
  | idle | execute newCmd | lock newCmd | sendData newCmd => trivial
  | setContactRadius newCmd => trivial
  | centerPoint newCmd index | setCenterPoint newCmd index value | unlock newCmd =>
      rw [here] at outside
      cases outside

/-- While the worker thread is inside, the main thread is not. -/
theorem Exclusive.outside
    {state : ResultState}
    (exclusive : Exclusive state)
    (inside : programInside state.program = true) :
    mainInside state.main = false := by
  rw [← Bool.not_eq_true, ← exclusive.main, exclusive.program.mpr inside]
  nofun

/-- Replies stay as they are while there are more samples. -/
theorem Replied.mono
    {after : Sampling}
    (replied : sampling.Replied)
    (main : after.state.main = sampling.state.main)
    (response : after.state.processor.response = sampling.state.processor.response)
    (answered : after.state.answered = sampling.state.answered)
    (grows : sampling.samples ⊆ after.samples) :
    after.Replied := by
  constructor
  · intro newCmd here query
    rw [response]
    exact grows (replied.pending newCmd (main ▸ here) query)
  · intro answer isAnswer query
    exact grows (replied.answered answer (answered ▸ isAnswer) query)

/-- An action of the worker thread. -/
theorem Consistent.programMoves
    (consistent : sampling.Consistent)
    (moves : sampling.state.ProgramMoves next) :
    Consistent
      { state := next
        drawn := sampling.drawn
        written :=
          if sampling.state.program = .unlock then sampling.written ++ [sampling.drawn]
          else sampling.written } := by
  obtain ⟨exclusive, written, copied, replied⟩ := consistent
  unfold Written at written
  cases moves with
  | lock contactRadius centerX centerY here free =>
      have outside : mainInside sampling.state.main = false := by
        rw [← Bool.not_eq_true, ← exclusive.main, free]
        nofun
      have turns : sampling.state.program ≠ .unlock := by simp [here]
      simp only [here] at written
      rw [if_neg turns]
      refine ⟨⟨iff_of_true rfl rfl, ?_⟩, written.2, copied,
        replied.mono rfl rfl rfl fun _ isSample => isSample⟩
      rw [outside]
      exact iff_of_false nofun Bool.false_ne_true
  | setContactRadius contactRadius centerX centerY here =>
      have inside : programInside sampling.state.program = true := by rw [here]; rfl
      have turns : sampling.state.program ≠ .unlock := by simp [here]
      simp only [here] at written
      rw [if_neg turns]
      exact ⟨⟨iff_of_true (exclusive.program.mpr inside) rfl, exclusive.main⟩,
        ⟨written, .inl rfl⟩, copied_of_outside (exclusive.outside inside),
        replied.mono rfl rfl rfl fun _ isSample => isSample⟩
  | setCenterPoint index centerX centerY here =>
      have inside : programInside sampling.state.program = true := by rw [here]; rfl
      have turns : sampling.state.program ≠ .unlock := by simp [here]
      simp only [here] at written
      rw [if_neg turns]
      refine ⟨⟨iff_of_true (exclusive.program.mpr inside) ?_, exclusive.main⟩, ?_,
        copied_of_outside (exclusive.outside inside),
        replied.mono rfl rfl rfl fun _ isSample => isSample⟩
      · dsimp only
        split <;> rfl
      · obtain ⟨drawn, rfl | ⟨rfl, first⟩⟩ := written
        · exact ⟨drawn, .inr ⟨rfl, by simp⟩⟩
        · simp [Written, ResponseResult.sample, drawn, first]
  | unlock here =>
      have inside : programInside sampling.state.program = true := by rw [here]; rfl
      have outside := exclusive.outside inside
      simp only [here] at written
      rw [if_pos here]
      refine ⟨⟨iff_of_false nofun Bool.false_ne_true, ?_⟩, ?_, copied,
        replied.mono rfl rfl rfl ?_⟩
      · rw [outside]
        exact iff_of_false nofun Bool.false_ne_true
      · exact written ▸ List.mem_cons_of_mem _ (by simp)
      · exact fun _ isSample => List.mem_append_left [sampling.drawn] isSample

/-- The mutex is as before when the main thread stays outside. -/
theorem Exclusive.of_main
    {state after : ResultState}
    (exclusive : Exclusive state)
    (program : after.program = state.program)
    (mutex : after.workingResultsMutex = state.workingResultsMutex)
    (inside : mainInside after.main = mainInside state.main) :
    Exclusive after := by
  constructor
  · rw [mutex, program]
    exact exclusive.program
  · rw [mutex, inside]
    exact exclusive.main

/-- While the main thread is inside, the latest result is one of the samples. -/
theorem Consistent.latest_mem
    (consistent : sampling.Consistent)
    (inside : mainInside sampling.state.main = true) :
    sampling.state.processor.latestResult.sample ∈ sampling.samples := by
  have outside : ¬ programInside sampling.state.program = true := by
    rw [← consistent.exclusive.program, consistent.exclusive.main.mpr inside]
    nofun
  have written := consistent.written
  unfold Written at written
  cases here : sampling.state.program with
  | idle =>
      simp only [here] at written
      exact written
  | lock contactRadius centerX centerY =>
      simp only [here] at written
      exact written.1
  | setContactRadius contactRadius centerX centerY | setCenterPoint index centerX centerY
  | unlock =>
      rw [here] at outside
      exact absurd rfl outside

/-- An action of the main thread. -/
theorem Consistent.mainMoves
    (consistent : sampling.Consistent)
    (moves : sampling.state.MainMoves next) :
    Consistent { sampling with state := next } := by
  have latest_mem := consistent.latest_mem
  obtain ⟨exclusive, written, copied, replied⟩ := consistent
  unfold Copied at copied
  cases moves with
  | executeQuery newCmd here =>
      refine ⟨exclusive.of_main rfl rfl (by rw [here]; rfl), written, trivial,
        nofun, replied.answered⟩
  | executeOther newCmd here other =>
      rw [executeCommand_eq]
      refine ⟨exclusive.of_main rfl rfl (by rw [here]; rfl), written, trivial, ?_,
        replied.answered⟩
      rintro _ ⟨⟩ query
      exact absurd query other
  | lock newCmd here free =>
      have outside : programInside sampling.state.program = false := by
        rw [← Bool.not_eq_true, ← exclusive.program, free]
        nofun
      refine ⟨⟨?_, iff_of_true rfl rfl⟩, written, trivial,
        nofun, replied.answered⟩
      rw [outside]
      exact iff_of_false nofun Bool.false_ne_true
  | setContactRadius newCmd here =>
      exact ⟨exclusive.of_main rfl rfl (by rw [here]; rfl), written, ⟨rfl, .inl rfl⟩,
        nofun, replied.answered⟩
  | centerPoint newCmd index here =>
      simp only [here] at copied
      exact ⟨exclusive.of_main rfl rfl (by rw [here]; rfl), written,
        ⟨copied.1, rfl, copied.2⟩, nofun, replied.answered⟩
  | setCenterPoint newCmd index value here =>
      simp only [here] at copied
      obtain ⟨radius, rfl, first | ⟨second, first⟩⟩ := copied
      · subst first
        exact ⟨exclusive.of_main rfl rfl (by rw [here]; rfl), written,
          ⟨radius, .inr ⟨rfl, by simp⟩⟩, nofun, replied.answered⟩
      · subst second
        refine ⟨exclusive.of_main rfl rfl (by rw [here]; rfl), written, ?_,
          nofun, replied.answered⟩
        simp [Copied, ResponseResult.sample, radius, first]
  | unlock newCmd here =>
      simp only [here] at copied
      have inside : mainInside sampling.state.main = true := by rw [here]; rfl
      refine ⟨⟨?_, iff_of_false nofun Bool.false_ne_true⟩, written,
        trivial, fun _ _ _ => copied ▸ latest_mem inside, replied.answered⟩
      refine iff_of_false nofun ?_
      rw [← exclusive.program, exclusive.main.mpr inside]
      nofun
  | sendData newCmd here =>
      refine ⟨exclusive.of_main rfl rfl (by rw [here]; rfl), written, trivial,
        nofun, ?_⟩
      simp only [List.mem_append, List.mem_singleton]
      rintro answer (isAnswer | rfl) query
      · exact replied.answered answer isAnswer query
      · exact replied.pending newCmd here query

/-- Every action keeps the invariant. -/
theorem Consistent.step
    {after : Sampling}
    {action : ResultAction}
    (consistent : sampling.Consistent)
    (stepped : sampling.step action = some after) :
    after.Consistent := by
  obtain ⟨next, acted, rfl⟩ := Option.map_eq_some_iff.mp stepped
  clear stepped
  have exclusive := consistent.exclusive
  have written := consistent.written
  have replied := consistent.replied
  cases action with
  | start =>
      cases acted
      exact ⟨exclusive.of_main rfl rfl rfl, written, consistent.copied, replied.pending,
        replied.answered⟩
  | shutdown =>
      cases acted
      exact ⟨exclusive.of_main rfl rfl rfl, written, consistent.copied, replied.pending,
        replied.answered⟩
  | push cmd =>
      cases acted
      exact ⟨exclusive.of_main rfl rfl rfl, written, consistent.copied, replied.pending,
        replied.answered⟩
  | programLoop contactRadius centerX centerY =>
      obtain ⟨here, called⟩ := Option.ite_none_right_eq_some.mp acted
      cases called
      unfold Written at written
      simp only [here] at written
      refine ⟨⟨?_, exclusive.main⟩, ⟨written, rfl⟩, consistent.copied,
        replied.mono rfl rfl rfl fun _ isSample => isSample⟩
      have outside := exclusive.program
      rwa [here] at outside
  | program =>
      have moved := consistent.programMoves (programMoves_of_programStep acted)
      simpa only [true_and] using moved
  | processCommands =>
      obtain ⟨here, called⟩ := Option.ite_none_right_eq_some.mp acted
      by_cases running : sampling.state.processor.running = true
      · rw [if_pos running] at called
        cases queue : sampling.state.processor.cmdFIFO with
        | nil => simp [queue] at called
        | cons newCmd rest =>
            simp only [queue, Option.some.injEq] at called
            subst called
            exact ⟨exclusive.of_main rfl rfl (by rw [here]; rfl), written, trivial,
              nofun, replied.answered⟩
      · rw [if_neg running] at called
        cases called
        exact ⟨exclusive, written, consistent.copied, replied.pending, replied.answered⟩
  | main =>
      have moved := consistent.mainMoves (mainMoves_of_mainStep acted)
      simpa using moved

end Preserved

/-- A constructed processor has the sample before any write. -/
theorem consistent_new (exitOnQuit : Bool) : (new exitOnQuit).Consistent where
  exclusive := ⟨by decide +revert, by decide +revert⟩
  written := List.mem_cons_self
  copied := trivial
  replied := ⟨nofun, nofun⟩

/-! ## What the observer notes -/

/-- The numbers that an action draws. -/
def numbersOf : ResultAction → List Sample
  | .programLoop contactRadius centerX centerY => [⟨contactRadius, centerX, centerY⟩]
  | .start | .shutdown | .push _ | .program | .processCommands | .main => []

/-- The observer notes only what calls of `programLoop` were made with. -/
structure Noted (called : List Sample) (sampling : Sampling) : Prop where
  written : ∀ sample ∈ sampling.written, sample ∈ called
  drawn : sampling.state.program ≠ .idle → sampling.drawn ∈ called

/-- More calls may have been made. -/
theorem Noted.more
    {called : List Sample}
    {sampling after : Sampling}
    (noted : Noted called sampling)
    (written : after.written = sampling.written)
    (drawn : after.drawn = sampling.drawn)
    (program : after.state.program = sampling.state.program)
    (more : List Sample) :
    Noted (called ++ more) after := by
  constructor
  · intro sample isWritten
    exact List.mem_append_left _ (noted.written sample (written ▸ isWritten))
  · intro called
    rw [drawn]
    exact List.mem_append_left _ (noted.drawn (program ▸ called))

/-- The main thread does not move the other one. -/
theorem program_of_mainMoves
    {state next : ResultState}
    (moves : state.MainMoves next) :
    next.program = state.program := by
  cases moves <;> rfl

theorem Noted.step
    {called : List Sample}
    {sampling after : Sampling}
    {action : ResultAction}
    (noted : Noted called sampling)
    (stepped : sampling.step action = some after) :
    Noted (called ++ numbersOf action) after := by
  obtain ⟨next, acted, rfl⟩ := Option.map_eq_some_iff.mp stepped
  clear stepped
  cases action with
  | start | shutdown | push cmd =>
      cases acted
      apply noted.more <;> rfl
  | programLoop contactRadius centerX centerY =>
      exact ⟨fun sample isWritten => List.mem_append_left _ (noted.written sample isWritten),
        fun _ => List.mem_append_right _ List.mem_cons_self⟩
  | program =>
      rw [numbersOf, List.append_nil]
      have moves := programMoves_of_programStep acted
      have busy : sampling.state.program ≠ .idle := by
        cases moves <;> simp [*]
      constructor
      · intro sample isWritten
        simp only [true_and] at isWritten
        split at isWritten
        · rcases List.mem_append.mp isWritten with before | last
          · exact noted.written sample before
          · rw [List.mem_singleton.mp last]
            exact noted.drawn busy
        · exact noted.written sample isWritten
      · exact fun _ => noted.drawn busy
  | processCommands =>
      obtain ⟨-, called⟩ := Option.ite_none_right_eq_some.mp acted
      split at called
      · cases queue : sampling.state.processor.cmdFIFO with
        | nil => simp [queue] at called
        | cons newCmd rest =>
            simp only [queue, Option.some.injEq] at called
            subst called
            apply noted.more <;> rfl
      · cases called
        apply noted.more <;> rfl
  | main =>
      apply noted.more
      · rfl
      · rfl
      · exact program_of_mainMoves (mainMoves_of_mainStep acted)

/-- Along a run the observer notes only numbers of calls in it. -/
theorem Noted.run
    {called : List Sample}
    {sampling after : Sampling}
    {actions : List ResultAction}
    (noted : Noted called sampling)
    (performed : TransitionSystem.run Sampling.step sampling actions = some after) :
    Noted (called ++ actions.flatMap numbersOf) after := by
  induction actions generalizing called sampling with
  | nil =>
      cases performed
      rwa [List.flatMap_nil, List.append_nil]
  | cons action actions inductionHypothesis =>
      obtain ⟨next, stepped, rest⟩ := TransitionSystem.run_cons_eq_some.mp performed
      rw [List.flatMap_cons, ← List.append_assoc]
      exact inductionHypothesis (noted.step stepped) rest

/-- Every run can be observed. -/
theorem exists_run
    {sampling : Sampling}
    {final : ResultState}
    {actions : List ResultAction}
    (performed : TransitionSystem.run ResultState.step sampling.state actions = some final) :
    ∃ after, TransitionSystem.run step sampling actions = some after ∧
      after.state = final := by
  induction actions generalizing sampling with
  | nil =>
      cases performed
      exact ⟨sampling, rfl, rfl⟩
  | cons action actions inductionHypothesis =>
      obtain ⟨next, stepped, rest⟩ := TransitionSystem.run_cons_eq_some.mp performed
      obtain ⟨middle, acted, rfl⟩ :
          ∃ middle, sampling.step action = some middle ∧ middle.state = next :=
        ⟨_, Option.map_eq_some_iff.mpr ⟨next, stepped, rfl⟩, rfl⟩
      obtain ⟨after, observed, same⟩ := inductionHypothesis rest
      exact ⟨after, TransitionSystem.run_cons_eq_some.mpr ⟨middle, acted, observed⟩, same⟩

/-- In every interleaving, the sample in the reply to a query is the one before any
write, or the one that a single turn of `programLoop` that is over has written. -/
theorem reply_is_one_sample
    {exitOnQuit : Bool}
    {actions : List ResultAction}
    {final : ResultState}
    (performed :
      TransitionSystem.run ResultState.step (.new exitOnQuit) actions = some final) :
    ∃ observed,
      TransitionSystem.run step (new exitOnQuit) actions = some observed ∧
        observed.state = final ∧
        (∀ sample ∈ observed.written,
          .programLoop sample.contactRadius sample.centerX sample.centerY ∈ actions) ∧
        ∀ answer ∈ final.answered, branchOf answer.1 = .query →
          answer.2.result.sample = (ResultState.new exitOnQuit).processor.latestResult.sample ∨
            answer.2.result.sample ∈ observed.written := by
  obtain ⟨observed, run, rfl⟩ := @exists_run (new exitOnQuit) _ _ performed
  have nothing : Noted [] (new exitOnQuit) :=
    ⟨List.forall_mem_nil _, fun busy => absurd rfl busy⟩
  have noted := nothing.run run
  have consistent : observed.Consistent :=
    TransitionSystem.run_preserves (fun _ _ _ holds stepped => holds.step stepped)
      (consistent_new exitOnQuit) run
  refine ⟨observed, run, rfl, fun sample isWritten => ?_, fun answer isAnswer query => ?_⟩
  · obtain ⟨action, isAction, isSample⟩ :=
      List.mem_flatMap.mp (noted.written sample isWritten)
    cases action with
    | programLoop contactRadius centerX centerY =>
        cases List.mem_singleton.mp isSample
        exact isAction
    | start | shutdown | push cmd | program | processCommands | main => cases isSample
  · exact List.mem_cons.mp (consistent.replied.answered answer isAnswer query)

/-- A query that is answered between two turns of `programLoop`. -/
def queryRun : List ResultAction :=
  [.start, .push { id_ := some 1, method_ := some (ascii ['q', 'u', 'e', 'r', 'y']) },
    .programLoop 1 2 3] ++ List.replicate 5 .program ++
    [.processCommands, .main, .main, .programLoop 4 5 6] ++ List.replicate 7 .main

theorem reply_is_one_sample_queryRun :
    ∃ final,
      TransitionSystem.run ResultState.step (.new true) queryRun = some final ∧
        ∃ observed,
          TransitionSystem.run step (new true) queryRun = some observed ∧
            observed.state = final ∧
            (∀ sample ∈ observed.written,
              .programLoop sample.contactRadius sample.centerX sample.centerY ∈ queryRun) ∧
            ∀ answer ∈ final.answered, branchOf answer.1 = .query →
              answer.2.result.sample =
                  (ResultState.new true).processor.latestResult.sample ∨
                answer.2.result.sample ∈ observed.written :=
  ⟨_, rfl, reply_is_one_sample rfl⟩

example :
    (TransitionSystem.run ResultState.step (.new true) queryRun).map
        (fun final => final.answered.map fun answer => answer.2.result.sample) =
      some [⟨1, 2, 3⟩] := by
  decide

end Sampling
end ProtobufSandbox
