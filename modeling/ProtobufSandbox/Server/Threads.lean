import ProtobufSandbox.Foundation.TransitionSystem
import ProtobufSandbox.Socket.LinuxSocket

/-!
# Threads of the server

`Start` creates the receive thread of the transport and the `programLoop` thread
of the processor, and `Shutdown` joins them. The transport remembers in
`m_CommStarted` whether it has a thread to join; the processor remembers nothing,
so it joins its handle whether or not the handle names a thread, and forgets a
thread whose handle it writes again.
-/

namespace ProtobufSandbox

/-- What happens to threads during a call of `Start` or `Shutdown`. Threads are
numbered in the order of their creation. -/
inductive ThreadCall
  | create (thread : Nat)
  | join (handle : Option Nat)
  | closeConnection
  | shutdownReturns
  deriving DecidableEq

/-! ## Logs of thread calls -/

/-- A thread that was created and not joined. -/
structure Unjoined (log : List ThreadCall) (thread : Nat) : Prop where
  created : .create thread ∈ log
  unjoined : .join (some thread) ∉ log

instance Unjoined.decidable (log : List ThreadCall) (thread : Nat) :
    Decidable (Unjoined log thread) :=
  decidable_of_iff (_ ∧ _) ⟨fun both => ⟨both.1, both.2⟩, fun both =>
    ⟨both.created, both.unjoined⟩⟩

/-- Every join is of a thread created and not yet joined, every thread is joined
at most once, and whenever `Shutdown` returns no thread is left. -/
structure ThreadSafe (log : List ThreadCall) : Prop where
  joins : ∀ before handle after, log = before ++ .join handle :: after →
    ∃ thread, handle = some thread ∧ Unjoined before thread
  once : ∀ thread, log.count (.join (some thread)) ≤ 1
  noneLeft : ∀ before after, log = before ++ .shutdownReturns :: after →
    ∀ thread, ¬ Unjoined before thread

/-- What the next call has to meet for a log to stay safe. -/
def Admits (log : List ThreadCall) : ThreadCall → Prop
  | .create _ | .closeConnection => True
  | .join handle => ∃ thread, handle = some thread ∧ Unjoined log thread
  | .shutdownReturns => ∀ thread, ¬ Unjoined log thread

/-- A list that ends in an element splits at an element inside or at the end. -/
theorem concat_eq_append_cons
    {log before after : List α}
    {last call : α}
    (split : log ++ [last] = before ++ call :: after) :
    (before = log ∧ call = last) ∨
      ∃ rest, log = before ++ call :: rest := by
  cases after using List.reverseRecOn with
  | nil =>
      obtain ⟨same, sameLast⟩ := List.append_inj' split rfl
      exact .inl ⟨same.symm, (List.singleton_inj.mp sameLast).symm⟩
  | append_singleton rest _ =>
      rw [← List.cons_append, ← List.append_assoc] at split
      exact .inr ⟨rest, (List.append_inj' split rfl).1⟩

/-- A log is extended call by call. -/
theorem threadSafe_concat_iff
    {log : List ThreadCall}
    {last : ThreadCall} :
    ThreadSafe (log ++ [last]) ↔ ThreadSafe log ∧ Admits log last := by
  constructor
  · intro safe
    refine ⟨⟨?_, ?_, ?_⟩, ?_⟩
    · intro before handle after split
      refine safe.joins before handle (after ++ [last]) ?_
      rw [split, List.append_assoc, List.cons_append]
    · intro thread
      have extended := safe.once thread
      rw [List.count_append] at extended
      omega
    · intro before after split
      refine safe.noneLeft before (after ++ [last]) ?_
      rw [split, List.append_assoc, List.cons_append]
    · cases last with
      | create thread => trivial
      | closeConnection => trivial
      | join handle => exact safe.joins log handle [] rfl
      | shutdownReturns => exact safe.noneLeft log [] rfl
  · rintro ⟨safe, admitted⟩
    refine ⟨?_, ?_, ?_⟩
    · intro before handle after split
      cases concat_eq_append_cons split with
      | inl final =>
          obtain ⟨rfl, rfl⟩ := final
          exact admitted
      | inr inside =>
          obtain ⟨rest, earlier⟩ := inside
          exact safe.joins before handle rest earlier
    · intro thread
      by_cases again : last = .join (some thread)
      · subst again
        obtain ⟨_, same, unjoined⟩ := admitted
        obtain rfl := Option.some.inj same
        rw [List.count_append, List.count_eq_zero.mpr unjoined.unjoined]
        simp
      · have other : [last].count (.join (some thread)) = 0 :=
          List.count_eq_zero.mpr (by simpa using Ne.symm again)
        rw [List.count_append, other]
        exact safe.once thread
    · intro before after split
      cases concat_eq_append_cons split with
      | inl final =>
          obtain ⟨rfl, rfl⟩ := final
          exact admitted
      | inr inside =>
          obtain ⟨rest, earlier⟩ := inside
          exact safe.noneLeft before rest earlier

/-- A call that is no creation leaves the threads that were left, less the one
it joins. -/
theorem unjoined_concat_iff
    {log : List ThreadCall}
    {call : ThreadCall}
    {thread : Nat}
    (noCreate : call ≠ .create thread) :
    Unjoined (log ++ [call]) thread ↔
      Unjoined log thread ∧ call ≠ .join (some thread) := by
  constructor
  · intro left
    have created := left.created
    have unjoined := left.unjoined
    simp only [List.mem_append, List.mem_singleton, not_or] at created unjoined
    exact ⟨⟨created.resolve_right noCreate.symm, unjoined.1⟩,
      fun same => unjoined.2 same.symm⟩
  · rintro ⟨left, other⟩
    refine ⟨List.mem_append_left _ left.created, ?_⟩
    simpa using ⟨left.unjoined, other.symm⟩

/-- A creation leaves the threads that were left. -/
theorem Unjoined.create
    {log : List ThreadCall}
    {thread : Nat}
    (left : Unjoined log thread)
    (other : Nat) :
    Unjoined (log ++ [.create other]) thread :=
  ⟨List.mem_append_left _ left.created, by simpa using left.unjoined⟩

/-- Joining a thread that is left, before or after closing its connection, is
safe and leaves the others. -/
theorem join_and_close
    {log calls : List ThreadCall}
    {thread : Nat}
    (left : Unjoined log thread)
    (order :
      calls = [.closeConnection, .join (some thread)] ∨
        calls = [.join (some thread), .closeConnection]) :
    (ThreadSafe (log ++ calls) ↔ ThreadSafe log) ∧
      ∀ other, Unjoined (log ++ calls) other ↔
        Unjoined log other ∧ other ≠ thread := by
  have single (first second : ThreadCall) :
      log ++ [first, second] = (log ++ [first]) ++ [second] := by simp
  cases order with
  | inl closedFirst =>
      subst closedFirst
      have still : Unjoined (log ++ [.closeConnection]) thread :=
        (unjoined_concat_iff (by simp)).mpr ⟨left, by simp⟩
      rw [single, threadSafe_concat_iff, threadSafe_concat_iff]
      refine ⟨?_, fun other => ?_⟩
      · simpa [Admits] using fun _ => still
      · rw [unjoined_concat_iff (by simp), unjoined_concat_iff (by simp)]
        simp [eq_comm]
  | inr joinedFirst =>
      subst joinedFirst
      rw [single, threadSafe_concat_iff, threadSafe_concat_iff]
      refine ⟨?_, fun other => ?_⟩
      · simpa [Admits] using fun _ => left
      · rw [unjoined_concat_iff (by simp), unjoined_concat_iff (by simp)]
        simp [eq_comm]

/-! ## Start and Shutdown -/

/-- `ThreadHelper`: the handle, which holds no thread before the first
`pthread_create` and is undefined after one that failed, and the flag that ends
the thread. -/
structure ThreadHelper where
  handle : Option Nat
  done : Bool
  deriving DecidableEq

/-- The processor and its transport as far as they concern threads, with the
number of threads created and the log of what happened to them. -/
structure Threads where
  hasSocket : Bool
  commStarted : Bool
  rx : ThreadHelper
  program : ThreadHelper
  running : Bool
  created : Nat
  log : List ThreadCall

namespace Threads

/-- The constructed objects; a thread helper is uninitialised. -/
def new (hasSocket : Bool) : Threads where
  hasSocket := hasSocket
  commStarted := false
  rx := { handle := none, done := false }
  program := { handle := none, done := false }
  running := false
  created := 0
  log := []

/-- `pthread_create` on the handle of the receive thread. -/
def createRx (threads : Threads) (succeeds : Bool) : Threads :=
  if succeeds then
    { threads with
      rx := { handle := some threads.created, done := false }
      created := threads.created + 1
      log := threads.log ++ [.create threads.created] }
  else
    { threads with rx := { handle := none, done := false } }

/-- `pthread_create` on the handle of the `programLoop` thread. -/
def createProgram (threads : Threads) (succeeds : Bool) : Threads :=
  if succeeds then
    { threads with
      program := { handle := some threads.created, done := false }
      created := threads.created + 1
      log := threads.log ++ [.create threads.created] }
  else
    { threads with program := { handle := none, done := false } }

/-- `SocketTransport::StartComm`. -/
def startComm (threads : Threads) (rxCreated : Bool) : Bool × Threads :=
  if threads.hasSocket = false then (false, threads)
  else if threads.commStarted = false then
    let created := threads.createRx rxCreated
    if rxCreated then (true, { created with commStarted := true })
    else (false, created)
  else (true, threads)

/-- `CommandProcessor::Start`. -/
def start
    (threads : Threads)
    (rxCreated programCreated : Bool) : Bool × Threads :=
  let started := threads.startComm rxCreated
  if started.1 = false then (false, started.2)
  else
    let created := started.2.createProgram programCreated
    if programCreated then (true, { created with running := true })
    else (false, created)

/-- `SocketTransport::StopComm`. -/
def stopComm (threads : Threads) (connectionState : ConnectionState) : Threads :=
  if threads.commStarted then
    { threads with
      commStarted := false
      rx := { threads.rx with done := true }
      log := threads.log ++
        -- A thread that waits for a client is freed by closing its socket.
        if connectionState = .serverPortSetup then
          [.closeConnection, .join threads.rx.handle]
        else [.join threads.rx.handle, .closeConnection] }
  else threads

/-- `CommandProcessor::Shutdown`. -/
def shutdown
    (threads : Threads)
    (connectionState : ConnectionState) : Threads :=
  let stopped :=
    stopComm
      { threads with
        running := false
        program := { threads.program with done := true } }
      connectionState
  { stopped with
    log := stopped.log ++ [.join stopped.program.handle, .shutdownReturns] }

/-- A call of the server, with the answers of `pthread_create`, or with the
state in which the transport finds its connection. -/
inductive Call
  | start (rxCreated programCreated : Bool)
  | shutdown (connectionState : ConnectionState)

/-- Perform a call. Every call returns. -/
def step (threads : Threads) : Call → Option Threads
  | .start rxCreated programCreated =>
      some (threads.start rxCreated programCreated).2
  | .shutdown connectionState => some (threads.shutdown connectionState)

/-- Every sequence of calls is a run. -/
theorem exists_run
    (threads : Threads)
    (calls : List Call) :
    ∃ final, TransitionSystem.run step threads calls = some final := by
  induction calls generalizing threads with
  | nil => exact ⟨threads, rfl⟩
  | cons call calls inductionHypothesis =>
      cases call with
      | start rxCreated programCreated => exact inductionHypothesis _
      | shutdown connectionState => exact inductionHypothesis _

/-! ## Which calls are safe -/

/-- The handle of the processor names a thread not yet joined, and no other is
left but the receive thread that the transport knows of. -/
def OneProgramThread (threads : Threads) : Prop :=
  ∃ thread, threads.program.handle = some thread ∧
    Unjoined threads.log thread ∧
    ∀ other, Unjoined threads.log other →
      other = thread ∨
        threads.commStarted = true ∧ threads.rx.handle = some other

/-- What holds after any calls: threads have different numbers, and the transport
knows its thread. -/
structure Numbered (threads : Threads) : Prop where
  create_lt : ∀ thread, .create thread ∈ threads.log → thread < threads.created
  join_lt : ∀ thread, .join (some thread) ∈ threads.log → thread < threads.created
  handle_lt :
    ∀ thread, threads.program.handle = some thread → thread < threads.created
  receiving : threads.commStarted = true →
    ∃ thread, threads.rx.handle = some thread ∧
      Unjoined threads.log thread ∧ threads.program.handle ≠ some thread

/-- A constructed object has no threads. -/
theorem numbered_new (hasSocket : Bool) : (new hasSocket).Numbered := by
  refine ⟨?_, ?_, ?_, ?_⟩ <;> simp [new]

/-- The next number is above those of the threads created with it. -/
theorem lt_of_create_mem
    {log : List ThreadCall}
    {count : Nat}
    (earlier : ∀ thread, .create thread ∈ log → thread < count)
    (thread : Nat)
    (present : .create thread ∈ log ++ [.create count]) :
    thread < count + 1 := by
  cases List.mem_append.mp present with
  | inl before => exact Nat.lt_succ_of_lt (earlier thread before)
  | inr last =>
      have : thread = count := by simpa using last
      omega

/-- A creation joins nothing. -/
theorem lt_of_join_mem
    {log : List ThreadCall}
    {count : Nat}
    (earlier : ∀ thread, .join (some thread) ∈ log → thread < count)
    (thread : Nat)
    (present : .join (some thread) ∈ log ++ [.create count]) :
    thread < count + 1 := by
  have before : .join (some thread) ∈ log := by simpa using present
  exact Nat.lt_succ_of_lt (earlier thread before)

/-- Creating the `programLoop` thread keeps the numbering. -/
theorem Numbered.createProgram
    {threads : Threads}
    (numbered : threads.Numbered)
    (succeeds : Bool) :
    (threads.createProgram succeeds).Numbered := by
  cases succeeds with
  | false =>
      refine ⟨numbered.create_lt, numbered.join_lt, by simp [Threads.createProgram],
        fun started => ?_⟩
      obtain ⟨thread, handle, left, -⟩ := numbered.receiving started
      exact ⟨thread, handle, left, by simp [Threads.createProgram]⟩
  | true =>
      simp only [Threads.createProgram, if_true]
      refine ⟨lt_of_create_mem numbered.create_lt,
        lt_of_join_mem numbered.join_lt, ?_, fun started => ?_⟩
      · intro thread handle
        have : threads.created = thread := by simpa using handle
        dsimp only
        omega
      · obtain ⟨thread, handle, left, -⟩ := numbered.receiving started
        have older := numbered.create_lt thread left.created
        refine ⟨thread, handle, left.create _, ?_⟩
        have : threads.created ≠ thread := by omega
        simpa using this

/-- Starting the communication keeps the numbering: a new receive thread has a
number of its own. -/
theorem Numbered.startComm
    {threads : Threads}
    (numbered : threads.Numbered)
    (rxCreated : Bool) :
    (threads.startComm rxCreated).2.Numbered := by
  unfold Threads.startComm
  by_cases noSocket : threads.hasSocket = false
  · rwa [if_pos noSocket]
  · rw [if_neg noSocket]
    by_cases stopped : threads.commStarted = false
    · rw [if_pos stopped]
      cases rxCreated with
      | false =>
          exact ⟨numbered.create_lt, numbered.join_lt, numbered.handle_lt,
            fun started => absurd started (by simp [createRx, stopped])⟩
      | true =>
          simp only [createRx, if_true]
          have fresh : .join (some threads.created) ∉ threads.log :=
            fun present => Nat.lt_irrefl _ (numbered.join_lt _ present)
          refine ⟨lt_of_create_mem numbered.create_lt,
            lt_of_join_mem numbered.join_lt, ?_,
            fun _ => ⟨threads.created, rfl, ?_, ?_⟩⟩
          · exact fun thread handle =>
              Nat.lt_succ_of_lt (numbered.handle_lt thread handle)
          · exact ⟨by simp, by simpa using fresh⟩
          · exact fun handle => Nat.lt_irrefl _ (numbered.handle_lt _ handle)
    · rwa [if_neg stopped]

/-- `Start` keeps the numbering, and is always safe. -/
theorem Numbered.start
    {threads : Threads}
    (numbered : threads.Numbered)
    (rxCreated programCreated : Bool) :
    (threads.start rxCreated programCreated).2.Numbered := by
  have communicating := numbered.startComm rxCreated
  have created := communicating.createProgram programCreated
  unfold Threads.start
  dsimp only
  split
  · exact communicating
  · split
    · exact ⟨created.create_lt, created.join_lt, created.handle_lt,
        created.receiving⟩
    · exact created

/-- `Start` joins nothing. -/
theorem threadSafe_start_iff
    (threads : Threads)
    (rxCreated programCreated : Bool) :
    ThreadSafe (threads.start rxCreated programCreated).2.log ↔
      ThreadSafe threads.log := by
  have communicating :
      ThreadSafe (threads.startComm rxCreated).2.log ↔
        ThreadSafe threads.log := by
    unfold startComm
    split
    · rfl
    · split
      · cases rxCreated with
        | false => rfl
        | true => simp [createRx, threadSafe_concat_iff, Admits]
      · rfl
  rw [← communicating]
  have creating (started : Threads) :
      ThreadSafe (started.createProgram programCreated).log ↔
        ThreadSafe started.log := by
    cases programCreated with
    | false => rfl
    | true => simp [createProgram, threadSafe_concat_iff, Admits]
  unfold start
  dsimp only
  split
  · rfl
  · split
    · exact creating _
    · exact creating _

/-- What `StopComm` leaves: it is safe, and joins the receive thread. -/
structure StopsComm (threads stopped : Threads) : Prop where
  handle : stopped.program.handle = threads.program.handle
  created : stopped.created = threads.created
  commStarted : stopped.commStarted = false
  safe : ThreadSafe stopped.log ↔ ThreadSafe threads.log
  unjoined : ∀ thread, Unjoined stopped.log thread ↔
    Unjoined threads.log thread ∧
      ¬ (threads.commStarted = true ∧ threads.rx.handle = some thread)
  create_mem : ∀ thread,
    .create thread ∈ stopped.log → .create thread ∈ threads.log
  join_mem : ∀ thread, .join (some thread) ∈ stopped.log →
    .join (some thread) ∈ threads.log ∨
      threads.commStarted = true ∧ threads.rx.handle = some thread

/-- `StopComm` joins the receive thread and no other. -/
theorem Numbered.stopComm
    {threads : Threads}
    (numbered : threads.Numbered)
    (connectionState : ConnectionState) :
    threads.StopsComm (threads.stopComm connectionState) := by
  unfold Threads.stopComm
  cases started : threads.commStarted with
  | false =>
      rw [if_neg Bool.false_ne_true]
      refine ⟨rfl, rfl, started, Iff.rfl, ?_, ?_, ?_⟩
      · simp [started]
      · exact fun thread => id
      · exact fun thread => .inl
  | true =>
      rw [if_pos rfl]
      obtain ⟨thread, handle, left, -⟩ := numbered.receiving started
      simp only [handle]
      generalize orderedCalls :
        (if connectionState = .serverPortSetup then
          [.closeConnection, .join (some thread)]
        else [.join (some thread), .closeConnection] : List ThreadCall) = calls
      have order :
          calls = [.closeConnection, .join (some thread)] ∨
            calls = [.join (some thread), .closeConnection] := by
        rw [← orderedCalls]
        split
        · exact .inl rfl
        · exact .inr rfl
      obtain ⟨safe, unjoined⟩ := join_and_close left order
      refine ⟨rfl, rfl, rfl, safe, ?_, ?_, ?_⟩
      · intro other
        rw [unjoined]
        simp [started, handle, eq_comm]
      · intro other present
        cases order with
        | inl closedFirst => simpa [closedFirst] using present
        | inr joinedFirst => simpa [joinedFirst] using present
      · intro other present
        have either : .join (some other) ∈ threads.log ∨ other = thread := by
          cases order with
          | inl closedFirst => simpa [closedFirst] using present
          | inr joinedFirst => simpa [joinedFirst] using present
        exact either.imp_right fun same => ⟨started, by rw [handle, same]⟩

/-- The flags that `Shutdown` writes before it stops the communication do not
matter to it. -/
theorem Numbered.stopComm_of_shutdown
    {threads : Threads}
    (numbered : threads.Numbered)
    (connectionState : ConnectionState) :
    threads.StopsComm
      (Threads.stopComm
        { threads with
          running := false
          program := { threads.program with done := true } }
        connectionState) := by
  have same : Numbered
      { threads with
        running := false
        program := { threads.program with done := true } } :=
    ⟨numbered.create_lt, numbered.join_lt, numbered.handle_lt,
      numbered.receiving⟩
  have stops := same.stopComm connectionState
  exact ⟨stops.handle, stops.created, stops.commStarted, stops.safe, stops.unjoined,
    stops.create_mem, stops.join_mem⟩

/-- `Shutdown` keeps the numbering. -/
theorem Numbered.shutdown
    {threads : Threads}
    (numbered : threads.Numbered)
    (connectionState : ConnectionState) :
    (threads.shutdown connectionState).Numbered := by
  have stops := numbered.stopComm_of_shutdown connectionState
  unfold Threads.shutdown
  generalize Threads.stopComm _ connectionState = stopped at stops ⊢
  refine ⟨?_, ?_, ?_, ?_⟩
  · intro thread present
    have earlier := stops.create_mem thread (by simpa using present)
    rw [stops.created]
    exact numbered.create_lt thread earlier
  · intro thread present
    have either :
        .join (some thread) ∈ stopped.log ∨
          stopped.program.handle = some thread := by
      simpa [eq_comm] using present
    rw [stops.created]
    cases either with
    | inl joined =>
        cases stops.join_mem thread joined with
        | inl earlier => exact numbered.join_lt thread earlier
        | inr receiving =>
            obtain ⟨other, handle, left, -⟩ := numbered.receiving receiving.1
            obtain rfl : other = thread :=
              Option.some.inj (handle.symm.trans receiving.2)
            exact numbered.create_lt other left.created
    | inr handle =>
        rw [stops.handle] at handle
        exact numbered.handle_lt thread handle
  · intro thread handle
    rw [stops.handle] at handle
    rw [stops.created]
    exact numbered.handle_lt thread handle
  · intro started
    exact absurd started (by simp [stops.commStarted])

/-- A `Shutdown` is safe exactly when the handle of the processor names the one
thread that is left besides the receive thread. -/
theorem threadSafe_shutdown_iff
    {threads : Threads}
    (numbered : threads.Numbered)
    (connectionState : ConnectionState) :
    ThreadSafe (threads.shutdown connectionState).log ↔
      ThreadSafe threads.log ∧
        threads.OneProgramThread := by
  have stops := numbered.stopComm_of_shutdown connectionState
  unfold Threads.shutdown OneProgramThread
  generalize Threads.stopComm _ connectionState = stopped at stops ⊢
  dsimp only
  rw [show stopped.log ++ [.join stopped.program.handle, .shutdownReturns] =
      (stopped.log ++ [.join stopped.program.handle]) ++ [.shutdownReturns] by
    simp, threadSafe_concat_iff, threadSafe_concat_iff, stops.safe, stops.handle,
    and_assoc]
  apply and_congr_right
  intro _
  constructor
  · rintro ⟨⟨thread, handle, left⟩, none⟩
    refine ⟨thread, handle, ((stops.unjoined thread).mp left).1, ?_⟩
    intro other otherLeft
    by_contra neither
    rw [not_or] at neither
    refine none other ((unjoined_concat_iff (by simp)).mpr
      ⟨(stops.unjoined other).mpr ⟨otherLeft, neither.2⟩, fun joined => ?_⟩)
    exact neither.1
      (Option.some.inj ((ThreadCall.join.inj joined).symm.trans handle))
  · rintro ⟨thread, handle, left, only⟩
    have notReceiving :
        ¬ (threads.commStarted = true ∧ threads.rx.handle = some thread) := by
      rintro ⟨started, receiving⟩
      obtain ⟨other, otherHandle, -, different⟩ := numbered.receiving started
      apply different
      rw [handle, ← otherHandle, receiving]
    refine ⟨⟨thread, handle, (stops.unjoined thread).mpr ⟨left, notReceiving⟩⟩,
      ?_⟩
    intro other otherLeft
    obtain ⟨stillLeft, notJoined⟩ := (unjoined_concat_iff (by simp)).mp otherLeft
    obtain ⟨otherLeft, otherReceiving⟩ := (stops.unjoined other).mp stillLeft
    cases only other otherLeft with
    | inl equal => exact notJoined (by simp [handle, equal])
    | inr receiving => exact otherReceiving receiving

/-! ## The calls alone -/

/-- What the calls since the last `Shutdown` came to: whether the receive thread was
created, and the outcomes of the creations of the `programLoop` thread that were tried. -/
structure Attempts where
  communicating : Bool
  outcomes : List Bool

/-- `Start` tries to create a `programLoop` thread once the receive thread is there. -/
def Attempts.call (hasSocket : Bool) (attempts : Attempts) : Call → Attempts
  | .start rxCreated programCreated =>
      if hasSocket = true ∧ (attempts.communicating = true ∨ rxCreated = true) then
        { communicating := true
          outcomes := attempts.outcomes ++ [programCreated] }
      else attempts
  | .shutdown _ => { communicating := false, outcomes := [] }

/-- The attempts of some calls after others. -/
def Attempts.calls (hasSocket : Bool) (attempts : Attempts) (calls : List Call) : Attempts :=
  calls.foldl (Attempts.call hasSocket) attempts

/-- The outcomes of the creations of a `programLoop` thread since the last `Shutdown` in
some calls. -/
def outcomesOf (hasSocket : Bool) (calls : List Call) : List Bool :=
  (Attempts.calls hasSocket { communicating := false, outcomes := [] } calls).outcomes

/-- One creation has succeeded, and none was tried behind it. -/
def OneCreated (outcomes : List Bool) : Prop :=
  ∃ failed, outcomes = failed ++ [true] ∧ true ∉ failed

theorem oneCreated_concat_iff (outcomes : List Bool) (last : Bool) :
    OneCreated (outcomes ++ [last]) ↔ true ∉ outcomes ∧ last = true := by
  constructor
  · rintro ⟨failed, split, none⟩
    obtain ⟨rfl, same⟩ := List.append_inj' split rfl
    exact ⟨none, List.singleton_inj.mp same⟩
  · rintro ⟨none, rfl⟩
    exact ⟨outcomes, rfl, none⟩

/-- The transport knows of the thread as its receive thread. -/
def Receiving (threads : Threads) (thread : Nat) : Prop :=
  threads.commStarted = true ∧ threads.rx.handle = some thread

/-- The threads that are left are those that the attempts have created. -/
structure Matches (threads : Threads) (attempts : Attempts) : Prop where
  communicating : threads.commStarted = attempts.communicating
  noneLeft : true ∉ attempts.outcomes →
    ∀ thread, Unjoined threads.log thread → threads.Receiving thread
  someLeft : true ∈ attempts.outcomes →
    ∃ thread, Unjoined threads.log thread ∧ ¬ threads.Receiving thread
  oneLeft : threads.OneProgramThread ↔ OneCreated attempts.outcomes

/-- Nothing is left in the beginning. -/
theorem matches_new (hasSocket : Bool) :
    (new hasSocket).Matches { communicating := false, outcomes := [] } := by
  have nothing (thread : Nat) : ¬ Unjoined (new hasSocket).log thread :=
    fun left => List.not_mem_nil left.created
  refine ⟨rfl, fun _ thread left => (nothing thread left).elim,
    fun some => (List.not_mem_nil some).elim, iff_of_false ?_ ?_⟩
  · rintro ⟨thread, -, left, -⟩
    exact nothing thread left
  · rintro ⟨failed, split, -⟩
    simp at split

/-- The attempt to create a `programLoop` thread, once the receive thread is there. -/
theorem Matches.createProgram
    {threads : Threads}
    {outcomes : List Bool}
    (numbered : threads.Numbered)
    (noneLeft : true ∉ outcomes →
      ∀ thread, Unjoined threads.log thread → threads.Receiving thread)
    (someLeft : true ∈ outcomes →
      ∃ thread, Unjoined threads.log thread ∧ ¬ threads.Receiving thread)
    (started : threads.commStarted = true)
    (succeeds : Bool) :
    (threads.createProgram succeeds).Matches
      { communicating := true, outcomes := outcomes ++ [succeeds] } := by
  cases succeeds with
  | false =>
      refine ⟨started, fun none => noneLeft fun some => none (List.mem_append_left _ some),
        fun some => someLeft (by simpa using some), ?_⟩
      rw [oneCreated_concat_iff]
      refine iff_of_false ?_ fun both => Bool.false_ne_true both.2
      rintro ⟨thread, handle, -⟩
      cases handle
  | true =>
      have fresh : Unjoined (threads.log ++ [.create threads.created]) threads.created := by
        refine ⟨by simp, ?_⟩
        simpa using fun present => Nat.lt_irrefl _ (numbered.join_lt _ present)
      have notReceiving : ¬ threads.Receiving threads.created := by
        rintro ⟨-, handle⟩
        obtain ⟨thread, isHandle, left, -⟩ := numbered.receiving started
        obtain rfl : thread = threads.created :=
          Option.some.inj (isHandle.symm.trans handle)
        exact Nat.lt_irrefl _ (numbered.create_lt _ left.created)
      refine ⟨started, fun none => absurd (by simp) none,
        fun _ => ⟨threads.created, fresh, notReceiving⟩, ?_⟩
      rw [oneCreated_concat_iff, and_iff_left rfl]
      constructor
      -- An older thread would be left besides the new one.
      · rintro ⟨thread, handle, -, only⟩ some
        obtain ⟨older, left, other⟩ := someLeft some
        rcases only older (left.create _) with same | receiving
        · obtain rfl : threads.created = older :=
            (Option.some.inj handle).trans same.symm
          exact Nat.lt_irrefl _ (numbered.create_lt _ left.created)
        · exact other receiving
      · intro none
        refine ⟨threads.created, rfl, fresh, fun other left => ?_⟩
        by_cases new : other = threads.created
        · exact .inl new
        · refine .inr (noneLeft none other ?_)
          obtain ⟨created, unjoined⟩ := left
          simp only [Threads.createProgram, if_true, List.mem_append, List.mem_singleton,
            ThreadCall.create.injEq, new, or_false, reduceCtorEq] at created unjoined
          exact ⟨created, unjoined⟩

/-- The receive thread that `Start` creates is known to the transport. -/
theorem Matches.receiving
    {threads : Threads}
    {attempts : Attempts}
    (numbered : threads.Numbered)
    (isMatch : threads.Matches attempts)
    (hasSocket : threads.hasSocket = true)
    (stopped : threads.commStarted = false)
    (programCreated : Bool) :
    (Threads.createProgram { threads.createRx true with commStarted := true }
        programCreated).Matches
      { communicating := true, outcomes := attempts.outcomes ++ [programCreated] } := by
  have started : Threads.Numbered { threads.createRx true with commStarted := true } := by
    have communicating := numbered.startComm true
    simp only [Threads.startComm, hasSocket, stopped, Bool.true_eq_false, if_false, if_true]
      at communicating
    exact communicating
  have notReceiving (thread : Nat) : ¬ threads.Receiving thread :=
    fun receiving => Bool.false_ne_true (stopped.symm.trans receiving.1)
  refine Matches.createProgram started (fun none thread left => ?_) (fun some => ?_) rfl
    programCreated
  · by_cases new : thread = threads.created
    · exact ⟨rfl, congrArg some new.symm⟩
    · obtain ⟨created, unjoined⟩ := left
      simp only [createRx, if_true, List.mem_append, List.mem_singleton,
        ThreadCall.create.injEq, new, or_false, reduceCtorEq] at created unjoined
      exact (notReceiving thread (isMatch.noneLeft none thread ⟨created, unjoined⟩)).elim
  · obtain ⟨thread, left, -⟩ := isMatch.someLeft some
    refine ⟨thread, left.create _, fun receiving => ?_⟩
    obtain rfl : threads.created = thread := Option.some.inj receiving.2
    exact Nat.lt_irrefl _ (numbered.create_lt _ left.created)

/-- `Start` makes the attempt. -/
theorem Matches.start
    {threads : Threads}
    {attempts : Attempts}
    (numbered : threads.Numbered)
    (isMatch : threads.Matches attempts)
    (rxCreated programCreated : Bool) :
    (threads.start rxCreated programCreated).2.Matches
      (attempts.call threads.hasSocket (.start rxCreated programCreated)) := by
  have running {created : Threads} {outcomes : Attempts} (isMatch : created.Matches outcomes) :
      (if programCreated then (true, { created with running := true })
        else (false, created)).2.Matches outcomes := by
    cases programCreated with
    | false => exact isMatch
    | true => exact ⟨isMatch.communicating, isMatch.noneLeft, isMatch.someLeft, isMatch.oneLeft⟩
  unfold Threads.start startComm Attempts.call
  by_cases noSocket : threads.hasSocket = false
  · simp only [noSocket, Bool.false_eq_true, false_and, if_true, if_false]
    exact isMatch
  · have hasSocket : threads.hasSocket = true := by simpa using noSocket
    cases communicates : threads.commStarted with
    | true =>
        have communicating := isMatch.communicating.symm.trans communicates
        simp only [hasSocket, communicating, Bool.true_eq_false, if_false, true_or, and_true,
          if_true]
        exact running (Matches.createProgram numbered isMatch.noneLeft isMatch.someLeft
          communicates programCreated)
    | false =>
        have stopped := isMatch.communicating.symm.trans communicates
        cases rxCreated with
        | true =>
            simp only [hasSocket, Bool.true_eq_false, if_false, if_true, or_true, and_true]
            exact running (isMatch.receiving numbered hasSocket communicates programCreated)
        | false =>
            simp only [hasSocket, stopped, Bool.true_eq_false,
              Bool.false_eq_true, if_false, if_true, or_self, and_false]
            have notReceiving (thread : Nat) : ¬ threads.Receiving thread :=
              fun receiving => Bool.false_ne_true (communicates.symm.trans receiving.1)
            refine ⟨isMatch.communicating, fun none thread left => ?_, fun some => ?_, ?_⟩
            · exact (notReceiving thread (isMatch.noneLeft none thread left)).elim
            · obtain ⟨thread, left, -⟩ := isMatch.someLeft some
              exact ⟨thread, left, fun receiving =>
                Bool.false_ne_true (communicates.symm.trans receiving.1)⟩
            · rw [← isMatch.oneLeft]
              simp [OneProgramThread, createRx, communicates]

/-- A safe `Shutdown` leaves nothing. -/
theorem Matches.shutdown
    {threads : Threads}
    (numbered : threads.Numbered)
    {connectionState : ConnectionState}
    (safe : ThreadSafe (threads.shutdown connectionState).log) :
    (threads.shutdown connectionState).Matches { communicating := false, outcomes := [] } := by
  have stops := numbered.stopComm_of_shutdown connectionState
  have nothing (thread : Nat) :
      ¬ Unjoined (threads.shutdown connectionState).log thread := by
    unfold Threads.shutdown at safe ⊢
    dsimp only at safe ⊢
    rw [← List.singleton_append, ← List.append_assoc] at safe ⊢
    rw [unjoined_concat_iff (by simp)]
    exact fun left => safe.noneLeft _ [] rfl thread left.1
  refine ⟨stops.commStarted, fun _ thread left => (nothing thread left).elim,
    fun some => (List.not_mem_nil some).elim, iff_of_false ?_ ?_⟩
  · rintro ⟨thread, -, left, -⟩
    exact nothing thread left
  · rintro ⟨failed, split, -⟩
    simp at split

/-- At every `Shutdown` among the calls one creation of a `programLoop` thread has
succeeded since the last one, and none was tried behind it. -/
def ShutsDownOne (hasSocket : Bool) (attempts : Attempts) (calls : List Call) : Prop :=
  ∀ before connectionState after, calls = before ++ .shutdown connectionState :: after →
    OneCreated (attempts.calls hasSocket before).outcomes

theorem shutsDownOne_cons_iff
    (hasSocket : Bool)
    (attempts : Attempts)
    (call : Call)
    (calls : List Call) :
    ShutsDownOne hasSocket attempts (call :: calls) ↔
      (∀ connectionState, call = .shutdown connectionState →
        OneCreated attempts.outcomes) ∧
      ShutsDownOne hasSocket (attempts.call hasSocket call) calls := by
  constructor
  · intro all
    refine ⟨fun connectionState same => all [] connectionState calls (same ▸ rfl),
      fun before connectionState after split => ?_⟩
    exact all (call :: before) connectionState after (split ▸ rfl)
  · rintro ⟨first, later⟩ before connectionState after split
    cases before with
    | nil =>
        obtain ⟨same, -⟩ := List.cons.inj split
        exact first connectionState same
    | cons other before =>
        obtain ⟨rfl, rest⟩ := List.cons.inj split
        exact later before connectionState after rest

theorem hasSocket_start
    (threads : Threads)
    (rxCreated programCreated : Bool) :
    (threads.start rxCreated programCreated).2.hasSocket = threads.hasSocket := by
  unfold start startComm createProgram createRx
  split_ifs <;> rfl

theorem hasSocket_shutdown (threads : Threads) (connectionState : ConnectionState) :
    (threads.shutdown connectionState).hasSocket = threads.hasSocket := by
  unfold shutdown stopComm
  split_ifs <;> rfl

/-- From a safe state on, the threads are safe after every call exactly if every
`Shutdown` has one thread to join. -/
theorem along_iff_shutsDownOne
    {threads : Threads}
    {attempts : Attempts}
    (numbered : threads.Numbered)
    (isMatch : threads.Matches attempts)
    (safe : ThreadSafe threads.log)
    (calls : List Call) :
    TransitionSystem.Along step (fun threads => ThreadSafe threads.log) threads calls ↔
      ShutsDownOne threads.hasSocket attempts calls := by
  induction calls generalizing threads attempts with
  | nil =>
      refine iff_of_true safe fun before connectionState after split => ?_
      simp at split
  | cons call calls inductionHypothesis =>
      rw [TransitionSystem.Along, and_iff_right safe, shutsDownOne_cons_iff]
      cases call with
      | start rxCreated programCreated =>
          have safeNext :=
            (threadSafe_start_iff threads rxCreated programCreated).mpr safe
          have rest := inductionHypothesis (numbered.start rxCreated programCreated)
            (isMatch.start numbered rxCreated programCreated) safeNext
          rw [hasSocket_start] at rest
          simp only [step, Option.some.injEq, forall_eq', rest, reduceCtorEq, false_implies,
            implies_true, true_and]
      | shutdown connectionState =>
          simp only [step, Option.some.injEq, forall_eq', Call.shutdown.injEq]
          have shut := threadSafe_shutdown_iff numbered connectionState
          rw [and_iff_right safe, isMatch.oneLeft] at shut
          by_cases one : OneCreated attempts.outcomes
          · have safeNext := shut.mpr one
            have rest := inductionHypothesis (numbered.shutdown connectionState)
              (Matches.shutdown numbered safeNext) safeNext
            rw [hasSocket_shutdown] at rest
            rw [rest, and_iff_right one]
            rfl
          · refine iff_of_false (fun along => one (shut.mp ?_)) fun both => one both.1
            cases calls with
            | nil => exact along
            | cons next calls => exact along.1

/-- The threads are safe after every call of a sequence exactly when, at every
`Shutdown`, one creation of a `programLoop` thread has succeeded since the last
`Shutdown`, and none was tried behind it. -/
theorem threadSafe_along_iff
    (hasSocket : Bool)
    (calls : List Call) :
    TransitionSystem.Along step (fun threads => ThreadSafe threads.log)
        (new hasSocket) calls ↔
      ∀ before connectionState after,
        calls = before ++ .shutdown connectionState :: after →
          OneCreated (outcomesOf hasSocket before) := by
  have initially : ThreadSafe (new hasSocket).log := by
    refine ⟨?_, ?_, ?_⟩ <;> simp [new]
  exact along_iff_shutsDownOne (numbered_new hasSocket) (matches_new hasSocket) initially
    calls

/-- The server's `main` when the `programLoop` thread cannot be created: it goes
on to `Shutdown`, which joins a handle that names no thread. -/
theorem not_threadSafe_main :
    ¬ TransitionSystem.Along step (fun threads => ThreadSafe threads.log)
      (new true) [.start true false, .shutdown .serverPortSetup] := by
  intro along
  have last := (along.2 _ rfl).2 _ rfl
  obtain ⟨thread, handle, -⟩ :=
    last.joins [.create 0, .closeConnection, .join (some 0)] none
      [.shutdownReturns] rfl
  cases handle

end Threads
end ProtobufSandbox
