import ProtobufSandbox.Socket.LinuxSocket

/-!
# Lines of a stream that arrives

What `readLine` makes of a stream of which more and more arrives. A line that it
returns was ended in the stream, or fills the buffer, or is empty because the
time was over; and with the time the call comes to an end.
-/

namespace ProtobufSandbox

/-- The bytes among the answers of `read`. -/
def bytesRead : List ReadOutcome → Bytes
  | [] => []
  | .byte value :: outcomes => value :: bytesRead outcomes
  | .closed :: outcomes => bytesRead outcomes
  | .interrupted :: outcomes => bytesRead outcomes
  | .wouldBlock :: outcomes => bytesRead outcomes
  | .failed :: outcomes => bytesRead outcomes

/-- The answers of `read` on a stream of which some bytes are consumed; each
`read` comes with the number of bytes that have arrived by then. -/
def answers (stream : Bytes) : Nat → List Nat → List ReadOutcome
  | _, [] => []
  | consumed, arrived :: arrivals =>
      match (stream.take arrived)[consumed]? with
      | some value => .byte value :: answers stream (consumed + 1) arrivals
      | none => .wouldBlock :: answers stream consumed arrivals

/-! ## Answers -/

theorem bytesRead_cons (outcome : ReadOutcome) (outcomes : List ReadOutcome) :
    bytesRead (outcome :: outcomes) = bytesRead [outcome] ++ bytesRead outcomes := by
  cases outcome <;> rfl

/-- What is read is the stream from there on, as far as it has arrived. -/
theorem bytesRead_answers_within
    {stream : Bytes}
    {limit : Nat}
    {arrivals : List Nat}
    (within : ∀ arrived ∈ arrivals, arrived ≤ limit)
    (consumed : Nat) :
    bytesRead (answers stream consumed arrivals) <+:
      (stream.take limit).drop consumed := by
  induction arrivals generalizing consumed with
  | nil => exact List.nil_prefix
  | cons arrived arrivals inductionHypothesis =>
      obtain ⟨first, within⟩ := List.forall_mem_cons.mp within
      unfold answers
      cases there : (stream.take arrived)[consumed]? with
      | none => exact inductionHypothesis within consumed
      | some value =>
          have early : consumed < arrived ∧ stream[consumed]? = some value := by
            rw [List.getElem?_take] at there
            split at there
            · next early => exact ⟨early, there⟩
            · cases there
          have later : (stream.take limit)[consumed]? = some value := by
            rw [List.getElem?_take, if_pos (by omega)]
            exact early.2
          obtain ⟨inRange, equal⟩ := List.getElem?_eq_some_iff.mp later
          rw [List.drop_eq_getElem_cons inRange, equal]
          exact (List.prefix_cons_inj value).mpr
            (inductionHypothesis within (consumed + 1))

/-- A further `read` adds one answer. -/
theorem exists_answers_concat
    (stream : Bytes)
    (consumed : Nat)
    (arrivals : List Nat)
    (arrived : Nat) :
    ∃ last, answers stream consumed (arrivals ++ [arrived]) =
      answers stream consumed arrivals ++ [last] := by
  induction arrivals generalizing consumed with
  | nil =>
      simp only [List.nil_append, answers]
      cases (stream.take arrived)[consumed]? with
      | none => exact ⟨.wouldBlock, rfl⟩
      | some value => exact ⟨.byte value, rfl⟩
  | cons first arrivals inductionHypothesis =>
      rw [List.cons_append, answers, answers]
      cases (stream.take first)[consumed]? with
      | none =>
          obtain ⟨last, same⟩ := inductionHypothesis consumed
          exact ⟨last, congrArg (List.cons ReadOutcome.wouldBlock) same⟩
      | some value =>
          obtain ⟨last, same⟩ := inductionHypothesis (consumed + 1)
          exact ⟨last, congrArg (List.cons (ReadOutcome.byte value)) same⟩

/-- The peer stays. -/
theorem closed_not_mem_answers
    (stream : Bytes)
    (consumed : Nat)
    (arrivals : List Nat) :
    ReadOutcome.closed ∉ answers stream consumed arrivals := by
  induction arrivals generalizing consumed with
  | nil => exact List.not_mem_nil
  | cons arrived arrivals inductionHypothesis =>
      rw [answers]
      cases (stream.take arrived)[consumed]? with
      | none =>
          exact List.not_mem_cons_of_ne_of_not_mem ReadOutcome.noConfusion
            (inductionHypothesis consumed)
      | some value =>
          exact List.not_mem_cons_of_ne_of_not_mem ReadOutcome.noConfusion
            (inductionHypothesis (consumed + 1))

namespace LinuxSocket

/-! ## The loop -/

section Loop

variable {socket : LinuxSocket} {bufferLength : Nat} {timeout_us : Int}
variable {stopOnDisconnect : Bool}

/-- As long as the peer stays, the object stays as it is. -/
theorem readLineLoop_socket_eq
    {outcomes : List ReadOutcome}
    {state : ReadLineState}
    {read : ReadResult}
    (stays : ReadOutcome.closed ∉ outcomes)
    (same : state.connectionState = socket.connectionState)
    (finished :
      socket.readLineLoop bufferLength timeout_us stopOnDisconnect outcomes
        state = some read) :
    read.socket = socket := by
  induction outcomes generalizing state with
  | nil => cases finished
  | cons outcome outcomes inductionHypothesis =>
      obtain ⟨notClosed, later⟩ := not_or.mp (mt List.mem_cons.mpr stays)
      have unchanged {last : ReadLineState}
          (kept : last.connectionState = state.connectionState) :
          { socket with connectionState := last.connectionState } = socket := by
        rw [kept, same]
      rcases readLineLoop_cases finished with
        ⟨returns, numRead, last, ends, rfl⟩ | ⟨next, turns, next_cases⟩
      · apply unchanged
        cases ends with
        | closed => exact absurd rfl notClosed
        | failed | endOfLine | full => rfl
      · have kept : next.connectionState = state.connectionState := by
          cases turns with
          | closed => exact absurd rfl notClosed
          | interrupted | wouldBlock | byte => rfl
        rcases next_cases with ⟨-, rfl⟩ | ⟨-, further⟩
        · exact unchanged kept
        · exact inductionHypothesis later (kept.trans same) further

/-- The buffer of a loop that has read some text. -/
structure Holds (bufferLength : Nat) (text : Bytes) (state : ReadLineState) :
    Prop where
  buffer : state.rcvBuffer =
    text ++ List.replicate (bufferLength - text.length) 0
  count : state.numRead = text.length
  room : text.length < bufferLength

/-- A further byte. -/
theorem Holds.set
    {text : Bytes}
    {state : ReadLineState}
    (holds : Holds bufferLength text state)
    (value : UInt8) :
    state.rcvBuffer.set state.numRead value =
      (text ++ [value]) ++
        List.replicate (bufferLength - (text ++ [value]).length) 0 := by
  have room := holds.room
  obtain ⟨zeros, length⟩ : ∃ zeros, bufferLength - text.length = zeros + 1 :=
    ⟨bufferLength - text.length - 1, by omega⟩
  have shorter : bufferLength - (text ++ [value]).length = zeros := by
    rw [List.length_append, List.length_singleton]
    omega
  rw [holds.buffer, holds.count, shorter, length, List.replicate_succ,
    List.set_append_right _ _ le_rfl, Nat.sub_self, List.set_cons_zero,
    List.append_assoc, List.singleton_append]

/-- A zero byte changes nothing. -/
theorem Holds.set_zero
    {text : Bytes}
    {state : ReadLineState}
    (holds : Holds bufferLength text state) :
    state.rcvBuffer.set state.numRead 0 = state.rcvBuffer := by
  have room := holds.room
  obtain ⟨zeros, length⟩ : ∃ zeros, bufferLength - text.length = zeros + 1 :=
    ⟨bufferLength - text.length - 1, by omega⟩
  rw [holds.buffer, holds.count, length, List.replicate_succ,
    List.set_append_right _ _ le_rfl, Nat.sub_self, List.set_cons_zero]

/-- A turn that goes on adds the byte it reads, if any. -/
theorem Holds.turn
    {text : Bytes}
    {state next : ReadLineState}
    {outcome : ReadOutcome}
    (holds : Holds bufferLength text state)
    (turns : Turn bufferLength timeout_us stopOnDisconnect state outcome next) :
    Holds bufferLength (text ++ bytesRead [outcome]) next := by
  cases turns with
  | interrupted | wouldBlock | closed =>
      rw [bytesRead, bytesRead, List.append_nil]
      exact ⟨holds.buffer, holds.count, holds.room⟩
  | byte value ordinary room =>
      refine ⟨holds.set value, ?_, ?_⟩
      · rw [bytesRead, bytesRead, List.length_append, List.length_singleton,
          holds.count]
      · rw [bytesRead, bytesRead, List.length_append, List.length_singleton,
          ← holds.count]
        exact room

/-- What a call that returns true leaves behind the text it had: what it has read
since, which is all, fills the buffer, or stands in front of an end of line. -/
def Line
    (bufferLength : Nat)
    (text available : Bytes)
    (read : ReadResult) : Prop :=
  ∃ more,
    read.rcvBuffer = (text ++ more) ++
      List.replicate (bufferLength - (text ++ more).length) 0 ∧
    (text ++ more = [] ∨
      (text ++ more).length = bufferLength ∧ more <+: available ∨
      ∃ ending, more ++ [ending] <+: available)

/-- Bytes in front. -/
theorem Line.append
    {text front available : Bytes}
    {read : ReadResult}
    (line : Line bufferLength (text ++ front) available read) :
    Line bufferLength text (front ++ available) read := by
  obtain ⟨more, buffer, ended⟩ := line
  rw [List.append_assoc text front more] at buffer ended
  refine ⟨front ++ more, buffer, ?_⟩
  rcases ended with empty | ⟨full, available⟩ | ⟨ending, available⟩
  · exact .inl empty
  · exact .inr (.inl ⟨full, (List.prefix_append_right_inj front).mpr available⟩)
  · refine .inr (.inr ⟨ending, ?_⟩)
    rw [List.append_assoc]
    exact (List.prefix_append_right_inj front).mpr available

/-- A call that ends with a byte returns a line. -/
theorem Holds.line_of_lastTurn
    {text : Bytes}
    {state last : ReadLineState}
    {outcome : ReadOutcome}
    {numRead : Int}
    (holds : Holds bufferLength text state)
    (ends : LastTurn bufferLength timeout_us stopOnDisconnect state outcome
      true numRead last)
    (outcomes : List ReadOutcome) :
    Line bufferLength text (bytesRead (outcome :: outcomes))
      (socket.finish true numRead last) := by
  cases ends with
  | endOfLine value ending =>
      refine ⟨[], ?_, .inr (.inr ⟨value, ?_⟩)⟩
      · rw [List.append_nil, ← holds.buffer]
        exact (List.set_set _).trans holds.set_zero
      · exact (List.prefix_cons_inj value).mpr List.nil_prefix
  | full value ordinary full =>
      have room := holds.room
      rw [holds.count] at full
      refine ⟨[value], holds.set value, .inr (.inl ⟨?_, ?_⟩)⟩
      · rw [List.length_append, List.length_singleton]
        omega
      · exact (List.prefix_cons_inj value).mpr List.nil_prefix

/-- A call that returns true returns a line. -/
theorem line_of_readLineLoop
    {outcomes : List ReadOutcome}
    {text : Bytes}
    {state : ReadLineState}
    {read : ReadResult}
    (holds : Holds bufferLength text state)
    (finished :
      socket.readLineLoop bufferLength timeout_us stopOnDisconnect outcomes
        state = some read)
    (returns : read.returns = true) :
    Line bufferLength text (bytesRead outcomes) read := by
  induction outcomes generalizing text state with
  | nil => cases finished
  | cons outcome outcomes inductionHypothesis =>
      rcases readLineLoop_cases finished with
        ⟨answer, numRead, last, ends, rfl⟩ | ⟨next, turns, next_cases⟩
      · obtain rfl : answer = true := returns
        exact holds.line_of_lastTurn ends outcomes
      · have nextHolds := holds.turn turns
        rw [bytesRead_cons]
        apply Line.append
        rcases next_cases with ⟨-, rfl⟩ | ⟨-, further⟩
        · -- The time is over, and the call returns true if nothing was read.
          have nothing : next.numRead = 0 := of_decide_eq_true returns
          have empty : text ++ bytesRead [outcome] = [] :=
            List.length_eq_zero_iff.mp (nextHolds.count.symm.trans nothing)
          refine ⟨[], ?_, .inl ?_⟩
          · rw [List.append_nil]
            exact nextHolds.buffer
          · rw [List.append_nil]
            exact empty
        · exact inductionHypothesis nextHolds further

/-- With nothing to read, the time runs out. -/
theorem exists_count_of_idle
    {stream : Bytes}
    {arrived consumed : Nat}
    (idle : (stream.take arrived)[consumed]? = none)
    {ticks : Nat}
    {state : ReadLineState}
    (time : state.timeout_us ≤ 250 * ticks) :
    ∃ count,
      (socket.readLineLoop bufferLength timeout_us stopOnDisconnect
        (answers stream consumed (List.replicate count arrived)) state).isSome := by
  induction ticks generalizing state with
  | zero =>
      refine ⟨1, ?_⟩
      simp only [List.replicate_one, answers, idle, readLineLoop]
      rw [if_pos (by omega)]
      split <;> rfl
  | succ ticks inductionHypothesis =>
      obtain ⟨count, ended⟩ := @inductionHypothesis
        { state with timeout_us := state.timeout_us - 250 }
        (by dsimp only; omega)
      refine ⟨count + 1, ?_⟩
      simp only [List.replicate_succ, answers, idle, readLineLoop]
      split
      · split <;> rfl
      · exact ended

/-- Whatever part of the stream has arrived, the call ends. -/
theorem exists_count
    (stream : Bytes)
    (arrived consumed : Nat)
    (state : ReadLineState) :
    ∃ count,
      (socket.readLineLoop bufferLength timeout_us stopOnDisconnect
        (answers stream consumed (List.replicate count arrived)) state).isSome := by
  generalize left : (stream.take arrived).length - consumed = remaining
  induction remaining generalizing consumed state with
  | zero =>
      have idle : (stream.take arrived)[consumed]? = none :=
        List.getElem?_eq_none (by omega)
      have time : state.timeout_us ≤ 250 * (state.timeout_us.toNat : Int) := by
        omega
      exact exists_count_of_idle idle time
  | succ remaining inductionHypothesis =>
      have inRange : consumed < (stream.take arrived).length := by omega
      have there := List.getElem?_eq_getElem inRange
      obtain ⟨count, ended⟩ := inductionHypothesis (consumed + 1)
        { state with
          rcvBuffer := state.rcvBuffer.set state.numRead (stream.take arrived)[consumed]
          numRead := state.numRead + 1
          timeout_us := if state.firstChar then state.timeout_us else timeout_us
          firstChar := true }
        (by omega)
      refine ⟨count + 1, ?_⟩
      simp only [List.replicate_succ, answers, there, readLineLoop]
      generalize (if state.firstChar = true then state.timeout_us else timeout_us) =
        time at ended ⊢
      split
      · rfl
      · split
        · rfl
        · split
          · split <;> rfl
          · exact ended

end Loop

end LinuxSocket
end ProtobufSandbox
