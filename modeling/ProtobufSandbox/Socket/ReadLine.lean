import Mathlib.Data.List.Induction
import Mathlib.Data.List.Infix
import ProtobufSandbox.Foundation.TurnLoop
import ProtobufSandbox.Socket.Arrivals

/-!
# Calls of `readLine`

The loop of `readLine` as a loop of turns, and its state as a function of the answers
of `read` that it has taken. How long the loop goes on is a property of those answers
alone: they bring no end of a line, no error, fewer bytes than the buffer holds, and
the time is never over.
-/

namespace ProtobufSandbox

/-- The bytes that end a line. -/
def isTerminator (value : UInt8) : Bool :=
  decide (value = newline ∨ value = carriageReturn)

/-- The bytes read that do not end a line. -/
def textRead (outcomes : List ReadOutcome) : Bytes :=
  (bytesRead outcomes).filter fun value => !isTerminator value

namespace ReadOutcome

/-- The answer is a byte. -/
def isByte : ReadOutcome → Bool
  | .byte _ => true
  | .closed | .interrupted | .wouldBlock | .failed => false

/-- The answers after which `readLine` sleeps and counts the time down. -/
def isIdle : ReadOutcome → Bool
  | .wouldBlock | .closed => true
  | .byte _ | .interrupted | .failed => false

end ReadOutcome

/-- The answers from the first byte on, or all of them if there is none. -/
def sinceFirstByte (outcomes : List ReadOutcome) : List ReadOutcome :=
  if bytesRead outcomes = [] then outcomes
  else outcomes.dropWhile fun outcome => !outcome.isByte

/-- The time that is left to a call after some answers. The first byte sets it back to
the whole of it. -/
def timeLeft (timeout_us : Int) (outcomes : List ReadOutcome) : Int :=
  timeout_us - 250 * ((sinceFirstByte outcomes).countP ReadOutcome.isIdle : Nat)

/-- The answers do not end a call of `readLine`. -/
structure KeepsReading
    (bufferLength : Nat)
    (timeout_us : Int)
    (stopOnDisconnect : Bool)
    (outcomes : List ReadOutcome) : Prop where
  ordinary : ∀ value ∈ bytesRead outcomes, isTerminator value = false
  room : (bytesRead outcomes).length < bufferLength
  working : ReadOutcome.failed ∉ outcomes
  connected : stopOnDisconnect = true → ReadOutcome.closed ∉ outcomes
  inTime : ∀ first, first <+: outcomes → first ≠ [] → 0 < timeLeft timeout_us first

instance KeepsReading.decidable
    (bufferLength : Nat)
    (timeout_us : Int)
    (stopOnDisconnect : Bool)
    (outcomes : List ReadOutcome) :
    Decidable (KeepsReading bufferLength timeout_us stopOnDisconnect outcomes) :=
  decidable_of_iff
    ((bytesRead outcomes).any isTerminator = false ∧
      (bytesRead outcomes).length < bufferLength ∧
      ReadOutcome.failed ∉ outcomes ∧
      (stopOnDisconnect = true → ReadOutcome.closed ∉ outcomes) ∧
      ∀ first ∈ outcomes.inits, first ≠ [] → 0 < timeLeft timeout_us first)
    ⟨fun ⟨ordinary, room, working, connected, inTime⟩ =>
        ⟨fun value isRead => Bool.not_eq_true _ ▸ List.any_eq_false.mp ordinary value isRead,
          room, working, connected,
          fun first isFirst => inTime first ((List.mem_inits first outcomes).mpr isFirst)⟩,
      fun keeps => ⟨List.any_eq_false.mpr fun value isRead =>
          Bool.not_eq_true _ ▸ keeps.ordinary value isRead,
        keeps.room, keeps.working, keeps.connected,
        fun first isFirst => keeps.inTime first ((List.mem_inits first outcomes).mp isFirst)⟩⟩

/-! ## One more answer -/

theorem bytesRead_append (first second : List ReadOutcome) :
    bytesRead (first ++ second) = bytesRead first ++ bytesRead second := by
  induction first with
  | nil => rfl
  | cons outcome first inductionHypothesis =>
      rw [List.cons_append, bytesRead_cons, bytesRead_cons outcome first,
        inductionHypothesis, List.append_assoc]

theorem bytesRead_eq_nil_iff {outcomes : List ReadOutcome} :
    bytesRead outcomes = [] ↔ ∀ outcome ∈ outcomes, outcome.isByte = false := by
  induction outcomes with
  | nil => simp [bytesRead]
  | cons outcome outcomes inductionHypothesis =>
      rw [bytesRead_cons, List.append_eq_nil_iff, inductionHypothesis, List.forall_mem_cons]
      cases outcome <;> simp [bytesRead, ReadOutcome.isByte]

section TimeLeft

variable {before : List ReadOutcome} {outcome : ReadOutcome}

theorem sinceFirstByte_concat_of_byte
    (none : bytesRead before = [])
    (isByte : outcome.isByte = true) :
    sinceFirstByte (before ++ [outcome]) = [outcome] := by
  have some : bytesRead (before ++ [outcome]) ≠ [] := by
    intro empty
    rw [bytesRead_eq_nil_iff] at empty
    cases isByte.symm.trans (empty outcome (by simp))
  rw [bytesRead_eq_nil_iff] at none
  rw [sinceFirstByte, if_neg some, List.dropWhile_append_of_pos]
  · rw [List.dropWhile_cons_of_neg (by simp [isByte])]
  · intro other isBefore
    simp [none other isBefore]

theorem sinceFirstByte_concat
    (other : bytesRead before ≠ [] ∨ outcome.isByte = false) :
    sinceFirstByte (before ++ [outcome]) = sinceFirstByte before ++ [outcome] := by
  unfold sinceFirstByte
  by_cases none : bytesRead before = []
  · have notByte := other.resolve_left (not_not_intro none)
    have empty : bytesRead (before ++ [outcome]) = [] := by
      rw [bytesRead_append, none, List.nil_append, bytesRead_eq_nil_iff]
      exact List.forall_mem_singleton.mpr notByte
    rw [if_pos empty, if_pos none]
  · have some : bytesRead (before ++ [outcome]) ≠ [] := by
      rw [bytesRead_append]
      exact List.append_ne_nil_of_left_ne_nil none _
    rw [if_neg some, if_neg none, List.dropWhile_append]
    rw [bytesRead_eq_nil_iff] at none
    rw [if_neg]
    simpa [List.isEmpty_iff, List.dropWhile_eq_nil_iff] using none

/-- The first byte sets the time back. -/
theorem timeLeft_concat_byte
    (timeout_us : Int)
    (before : List ReadOutcome)
    (value : UInt8) :
    timeLeft timeout_us (before ++ [.byte value]) =
      if bytesRead before = [] then timeout_us else timeLeft timeout_us before := by
  unfold timeLeft
  by_cases none : bytesRead before = []
  · rw [if_pos none, sinceFirstByte_concat_of_byte none rfl]
    simp [ReadOutcome.isIdle]
  · rw [if_neg none, sinceFirstByte_concat (.inl none), List.countP_append]
    simp [ReadOutcome.isIdle]

/-- Any other answer leaves the time or counts it down. -/
theorem timeLeft_concat
    (timeout_us : Int)
    (notByte : outcome.isByte = false) :
    timeLeft timeout_us (before ++ [outcome]) =
      timeLeft timeout_us before - if outcome.isIdle then 250 else 0 := by
  unfold timeLeft
  rw [sinceFirstByte_concat (.inr notByte), List.countP_append, List.countP_singleton]
  split
  · omega
  · omega

end TimeLeft

/-- One more answer, with room behind it if it is a byte, leaves room. -/
theorem length_bytesRead_concat_lt
    {bufferLength : Nat}
    {before : List ReadOutcome}
    {outcome : ReadOutcome}
    (room : (bytesRead before).length < bufferLength)
    (more : ∀ value, outcome = .byte value → (bytesRead before).length + 1 < bufferLength) :
    (bytesRead (before ++ [outcome])).length < bufferLength := by
  rw [bytesRead_append, List.length_append]
  cases outcome with
  | byte value => exact more value rfl
  | closed | interrupted | wouldBlock | failed => exact room

/-- One more answer with which a call goes on. -/
theorem keepsReading_concat_iff
    {bufferLength : Nat}
    {timeout_us : Int}
    {stopOnDisconnect : Bool}
    {before : List ReadOutcome}
    {outcome : ReadOutcome} :
    KeepsReading bufferLength timeout_us stopOnDisconnect (before ++ [outcome]) ↔
      KeepsReading bufferLength timeout_us stopOnDisconnect before ∧
        (∀ value, outcome = .byte value → isTerminator value = false ∧
          (bytesRead before).length + 1 < bufferLength) ∧
        outcome ≠ .failed ∧ (stopOnDisconnect = true → outcome ≠ .closed) ∧
        0 < timeLeft timeout_us (before ++ [outcome]) := by
  have ends : before ++ [outcome] ≠ [] := List.append_ne_nil_of_right_ne_nil _ (by simp)
  constructor
  · rintro ⟨ordinary, room, working, connected, inTime⟩
    rw [bytesRead_append] at ordinary room
    refine ⟨⟨fun value isRead => ordinary value (List.mem_append_left _ isRead), ?_,
      fun isBefore => working (List.mem_append_left _ isBefore),
      fun stops isBefore => connected stops (List.mem_append_left _ isBefore),
      fun first isFirst => inTime first (isFirst.trans (List.prefix_append _ _))⟩, ?_,
      ?_, ?_, inTime _ (List.prefix_refl _) ends⟩
    · rw [List.length_append] at room
      omega
    · rintro value rfl
      refine ⟨ordinary value (List.mem_append_right _ List.mem_cons_self), ?_⟩
      rwa [List.length_append] at room
    · rintro rfl
      exact working (List.mem_append_right _ List.mem_cons_self)
    · rintro stops rfl
      exact connected stops (List.mem_append_right _ List.mem_cons_self)
  · rintro ⟨keeps, goes, notFailed, notClosed, time⟩
    refine ⟨fun value isRead => ?_, ?_, fun isFailed => ?_, fun stops isClosed => ?_,
      fun first isFirst notEmpty => ?_⟩
    · rw [bytesRead_append, List.mem_append] at isRead
      rcases isRead with isBefore | isLast
      · exact keeps.ordinary value isBefore
      · cases outcome with
        | byte other =>
            obtain rfl : value = other := List.mem_singleton.mp isLast
            exact (goes value rfl).1
        | closed | interrupted | wouldBlock | failed => cases isLast
    · exact length_bytesRead_concat_lt keeps.room fun value same => (goes value same).2
    · rcases List.mem_append.mp isFailed with isBefore | isLast
      · exact keeps.working isBefore
      · exact notFailed (List.mem_singleton.mp isLast).symm
    · rcases List.mem_append.mp isClosed with isBefore | isLast
      · exact keeps.connected stops isBefore
      · exact notClosed stops (List.mem_singleton.mp isLast).symm
    · rcases List.prefix_concat_iff.mp isFirst with rfl | isBefore
      · exact time
      · exact keeps.inTime first isBefore notEmpty

/-- One more answer that is no end of a line. -/
theorem KeepsReading.ordinary_concat
    {bufferLength : Nat}
    {timeout_us : Int}
    {stopOnDisconnect : Bool}
    {before : List ReadOutcome}
    {outcome : ReadOutcome}
    (keeps : KeepsReading bufferLength timeout_us stopOnDisconnect before)
    (goes : ∀ value, outcome = .byte value → isTerminator value = false) :
    ∀ value ∈ bytesRead (before ++ [outcome]), isTerminator value = false := by
  rw [bytesRead_append, List.forall_mem_append]
  refine ⟨keeps.ordinary, fun value isRead => ?_⟩
  cases outcome with
  | byte other =>
      obtain rfl := List.mem_singleton.mp isRead
      exact goes value rfl
  | closed | interrupted | wouldBlock | failed => cases isRead

namespace LinuxSocket

/-! ## The loop as a loop of turns -/

section Call

variable (socket : LinuxSocket) (bufferLength : Nat) (timeout_us : Int)
variable (stopOnDisconnect : Bool)

/-- The test at the end of a turn. -/
def endOfTurn (next : ReadLineState) : ReadResult ⊕ ReadLineState :=
  if next.timeout_us ≤ 0 then
    if 0 < next.numRead then .inl (socket.finish false next.numRead next)
    else .inl (socket.finish true next.numRead next)
  else .inr next

/-- A turn of the loop of `readLine`. -/
def readLineTurn (state : ReadLineState) : ReadOutcome → ReadResult ⊕ ReadLineState
  | .interrupted => socket.endOfTurn state
  | .wouldBlock => socket.endOfTurn { state with timeout_us := state.timeout_us - 250 }
  | .failed => .inl (socket.finish false state.numRead state)
  | .closed =>
      let dropped := { state with connectionState := .noConnection }
      if stopOnDisconnect then .inl (socket.finish false (-1) dropped)
      else socket.endOfTurn { dropped with timeout_us := state.timeout_us - 250 }
  | .byte value =>
      let stored := state.store timeout_us value
      if value = newline ∨ value = carriageReturn then
        .inl (socket.finish true state.numRead
          { stored with rcvBuffer := stored.rcvBuffer.set state.numRead 0 })
      else if bufferLength ≤ state.numRead + 1 then
        .inl (socket.finish true (state.numRead + 1) stored)
      else socket.endOfTurn { stored with numRead := state.numRead + 1 }

/-- The variables of a call in front of its loop. -/
def lineStart : ReadLineState where
  rcvBuffer := List.replicate bufferLength 0
  numRead := 0
  timeout_us := timeout_us
  firstChar := false
  connectionState := socket.connectionState

/-- What `readLine` returns, and the answers of `read` that it leaves to later
calls. -/
def readLineCall (outcomes : List ReadOutcome) :
    Option (ReadResult × List ReadOutcome) :=
  TurnLoop.call (socket.readLineTurn bufferLength timeout_us stopOnDisconnect)
    (socket.lineStart bufferLength timeout_us) outcomes

/-- The variables of a call after some answers, while its loop goes on. -/
def readLineAfter (outcomes : List ReadOutcome) : Option ReadLineState :=
  TurnLoop.after (socket.readLineTurn bufferLength timeout_us stopOnDisconnect)
    (socket.lineStart bufferLength timeout_us) outcomes

end Call

section Turns

variable {socket : LinuxSocket} {bufferLength : Nat} {timeout_us : Int}
variable {stopOnDisconnect : Bool}

theorem readLineLoop_eq (outcomes : List ReadOutcome) (state : ReadLineState) :
    socket.readLineLoop bufferLength timeout_us stopOnDisconnect outcomes state =
      (TurnLoop.call (socket.readLineTurn bufferLength timeout_us stopOnDisconnect) state
        outcomes).map Prod.fst := by
  induction outcomes generalizing state with
  | nil => rfl
  | cons outcome outcomes inductionHypothesis =>
      have further (next : ReadLineState) :
          (if next.timeout_us ≤ 0 then
            if 0 < next.numRead then some (socket.finish false next.numRead next)
            else some (socket.finish true next.numRead next)
          else
            socket.readLineLoop bufferLength timeout_us stopOnDisconnect outcomes next) =
            ((socket.endOfTurn next).elim (fun read => some (read, outcomes)) fun next =>
              TurnLoop.call
                (socket.readLineTurn bufferLength timeout_us stopOnDisconnect) next
                outcomes).map Prod.fst := by
        unfold endOfTurn
        split
        · split <;> rfl
        · exact inductionHypothesis next
      cases outcome with
      | interrupted => exact further state
      | wouldBlock => exact further _
      | failed => rfl
      | closed =>
          cases stopOnDisconnect with
          | true => rfl
          | false => exact further _
      | byte value =>
          rw [TurnLoop.call]
          simp only [readLineLoop, readLineTurn]
          split
          · rfl
          · split
            · rfl
            · exact further { state.store timeout_us value with numRead := state.numRead + 1 }

/-- `readLine` returns what its call returns. -/
theorem readLine_eq (outcomes : List ReadOutcome) :
    socket.readLine bufferLength timeout_us stopOnDisconnect outcomes =
      (socket.readLineCall bufferLength timeout_us stopOnDisconnect outcomes).map
        Prod.fst :=
  readLineLoop_eq outcomes _

/-- The end of a turn goes on while there is time. -/
theorem endOfTurn_eq_inr_iff {next other : ReadLineState} :
    socket.endOfTurn next = .inr other ↔ 0 < next.timeout_us ∧ next = other := by
  unfold endOfTurn
  by_cases expired : next.timeout_us ≤ 0
  · rw [if_pos expired]
    refine iff_of_false ?_ fun both => absurd both.1 (by omega)
    split <;> exact Sum.inl_ne_inr
  · rw [if_neg expired, Sum.inr.injEq]
    simp only [show 0 < next.timeout_us by omega, true_and]

/-- When the time is over a call ends, with success if it has read nothing. -/
theorem endOfTurn_eq_inl_iff {next : ReadLineState} {read : ReadResult} :
    socket.endOfTurn next = .inl read ↔
      next.timeout_us ≤ 0 ∧
        read = socket.finish (decide (next.numRead = 0)) next.numRead next := by
  unfold endOfTurn
  by_cases expired : next.timeout_us ≤ 0
  · rw [if_pos expired]
    simp only [expired, true_and]
    by_cases begun : 0 < next.numRead
    · rw [if_pos begun, Sum.inl.injEq, decide_eq_false (Nat.ne_of_gt begun), eq_comm]
    · rw [if_neg begun, Sum.inl.injEq, decide_eq_true (Nat.eq_zero_of_not_pos begun),
        eq_comm]
  · rw [if_neg expired]
    exact iff_of_false Sum.inr_ne_inl fun both => expired both.1

/-- The turns that go on. -/
theorem readLineTurn_eq_inr_iff
    {state next : ReadLineState}
    {outcome : ReadOutcome} :
    socket.readLineTurn bufferLength timeout_us stopOnDisconnect state outcome =
        .inr next ↔
      Turn bufferLength timeout_us stopOnDisconnect state outcome next ∧
        0 < next.timeout_us := by
  constructor
  · intro turned
    cases outcome with
    | interrupted =>
        obtain ⟨time, rfl⟩ := endOfTurn_eq_inr_iff.mp turned
        exact ⟨.interrupted, time⟩
    | wouldBlock =>
        obtain ⟨time, rfl⟩ := endOfTurn_eq_inr_iff.mp turned
        exact ⟨.wouldBlock, time⟩
    | failed => cases turned
    | closed =>
        cases stopOnDisconnect with
        | true => cases turned
        | false =>
            obtain ⟨time, rfl⟩ := endOfTurn_eq_inr_iff.mp turned
            exact ⟨.closed rfl, time⟩
    | byte value =>
        rw [readLineTurn] at turned
        by_cases ending : value = newline ∨ value = carriageReturn
        · rw [if_pos ending] at turned
          cases turned
        · rw [if_neg ending] at turned
          by_cases full : bufferLength ≤ state.numRead + 1
          · rw [if_pos full] at turned
            cases turned
          · rw [if_neg full] at turned
            obtain ⟨time, rfl⟩ := endOfTurn_eq_inr_iff.mp turned
            exact ⟨.byte value ending (Nat.lt_of_not_le full), time⟩
  · rintro ⟨turns, time⟩
    cases turns with
    | interrupted => exact endOfTurn_eq_inr_iff.mpr ⟨time, rfl⟩
    | wouldBlock => exact endOfTurn_eq_inr_iff.mpr ⟨time, rfl⟩
    | closed stays =>
        subst stays
        exact endOfTurn_eq_inr_iff.mpr ⟨time, rfl⟩
    | byte value ordinary room =>
        rw [readLineTurn]
        dsimp only
        rw [if_neg ordinary, if_neg (Nat.not_le.mpr room)]
        exact endOfTurn_eq_inr_iff.mpr ⟨time, rfl⟩

/-- The turns that return: a last turn, or one at whose end the time is over. -/
theorem readLineTurn_eq_inl_iff
    {state : ReadLineState}
    {outcome : ReadOutcome}
    {read : ReadResult} :
    socket.readLineTurn bufferLength timeout_us stopOnDisconnect state outcome =
        .inl read ↔
      (∃ returns numRead last,
        LastTurn bufferLength timeout_us stopOnDisconnect state outcome returns numRead
            last ∧
          read = socket.finish returns numRead last) ∨
        ∃ next, Turn bufferLength timeout_us stopOnDisconnect state outcome next ∧
          next.timeout_us ≤ 0 ∧
            read = socket.finish (decide (next.numRead = 0)) next.numRead next := by
  constructor
  · intro turned
    cases outcome with
    | interrupted => exact .inr ⟨_, .interrupted, endOfTurn_eq_inl_iff.mp turned⟩
    | wouldBlock => exact .inr ⟨_, .wouldBlock, endOfTurn_eq_inl_iff.mp turned⟩
    | failed => exact .inl ⟨_, _, _, .failed, (Sum.inl.inj turned).symm⟩
    | closed =>
        cases stopOnDisconnect with
        | true => exact .inl ⟨_, _, _, .closed rfl, (Sum.inl.inj turned).symm⟩
        | false => exact .inr ⟨_, .closed rfl, endOfTurn_eq_inl_iff.mp turned⟩
    | byte value =>
        rw [readLineTurn] at turned
        by_cases ending : value = newline ∨ value = carriageReturn
        · rw [if_pos ending] at turned
          exact .inl ⟨_, _, _, .endOfLine value ending, (Sum.inl.inj turned).symm⟩
        · rw [if_neg ending] at turned
          by_cases full : bufferLength ≤ state.numRead + 1
          · rw [if_pos full] at turned
            exact .inl ⟨_, _, _, .full value ending full, (Sum.inl.inj turned).symm⟩
          · rw [if_neg full] at turned
            exact .inr ⟨_, .byte value ending (Nat.lt_of_not_le full),
              endOfTurn_eq_inl_iff.mp turned⟩
  · rintro (⟨returns, numRead, last, ends, rfl⟩ | ⟨next, turns, expired, rfl⟩)
    · cases ends with
      | failed => rfl
      | closed stops =>
          subst stops
          rfl
      | endOfLine value ending =>
          rw [readLineTurn]
          exact if_pos ending
      | full value ordinary full =>
          rw [readLineTurn, if_neg ordinary, if_pos full]
    · cases turns with
      | interrupted => exact endOfTurn_eq_inl_iff.mpr ⟨expired, rfl⟩
      | wouldBlock => exact endOfTurn_eq_inl_iff.mpr ⟨expired, rfl⟩
      | closed stays =>
          subst stays
          exact endOfTurn_eq_inl_iff.mpr ⟨expired, rfl⟩
      | byte value ordinary room =>
          rw [readLineTurn]
          dsimp only
          rw [if_neg ordinary, if_neg (Nat.not_le.mpr room)]
          exact endOfTurn_eq_inl_iff.mpr ⟨expired, rfl⟩

end Turns

/-! ## The state after some answers -/

/-- What a call holds after some answers of `read`, as long as it goes on. -/
def lineState
    (socket : LinuxSocket)
    (bufferLength : Nat)
    (timeout_us : Int)
    (before : List ReadOutcome) : ReadLineState where
  rcvBuffer := bytesRead before ++
    List.replicate (bufferLength - (bytesRead before).length) 0
  numRead := (bytesRead before).length
  timeout_us := timeLeft timeout_us before
  firstChar := decide (bytesRead before ≠ [])
  connectionState :=
    if ReadOutcome.closed ∈ before then .noConnection else socket.connectionState

section State

variable {socket : LinuxSocket} {bufferLength : Nat} {timeout_us : Int}
variable {stopOnDisconnect : Bool} {before : List ReadOutcome} {outcome : ReadOutcome}

theorem isTerminator_eq_false_iff {value : UInt8} :
    isTerminator value = false ↔ ¬ (value = newline ∨ value = carriageReturn) :=
  decide_eq_false_iff_not

/-- The state of a call holds what it has read. -/
theorem holds_lineState (room : (bytesRead before).length < bufferLength) :
    Holds bufferLength (bytesRead before)
      (socket.lineState bufferLength timeout_us before) :=
  ⟨rfl, rfl, room⟩

/-- The state after one more answer, where its bytes do not change. -/
theorem lineState_concat_of_not_byte (notByte : outcome.isByte = false) :
    socket.lineState bufferLength timeout_us (before ++ [outcome]) =
      { socket.lineState bufferLength timeout_us before with
        timeout_us :=
          timeLeft timeout_us before - if outcome.isIdle then 250 else 0
        connectionState :=
          if ReadOutcome.closed ∈ before ∨ ReadOutcome.closed = outcome then .noConnection
          else socket.connectionState } := by
  have same : bytesRead (before ++ [outcome]) = bytesRead before := by
    rw [bytesRead_append, bytesRead_eq_nil_iff.mpr (List.forall_mem_singleton.mpr notByte),
      List.append_nil]
  rw [lineState, lineState, same, timeLeft_concat timeout_us notByte]
  simp only [List.mem_append, List.mem_singleton]

/-- The state after one more byte. -/
theorem lineState_concat_byte
    (room : (bytesRead before).length < bufferLength)
    (value : UInt8) :
    socket.lineState bufferLength timeout_us (before ++ [.byte value]) =
      { (socket.lineState bufferLength timeout_us before).store timeout_us value with
        numRead := (bytesRead before).length + 1 } := by
  have read : bytesRead (before ++ [.byte value]) = bytesRead before ++ [value] :=
    bytesRead_append _ _
  have stored := (@holds_lineState socket _ timeout_us _ room).set value
  have sameState : ReadOutcome.closed ∈ before ++ [.byte value] ↔
      ReadOutcome.closed ∈ before := by simp
  have sameTime : timeLeft timeout_us (before ++ [.byte value]) =
      if decide (bytesRead before ≠ []) = true then timeLeft timeout_us before
      else timeout_us := by
    rw [timeLeft_concat_byte]
    by_cases none : bytesRead before = []
    · simp [none]
    · simp [none]
  have some : decide (bytesRead before ++ [value] ≠ []) = true := by simp
  rw [lineState, read, ← stored, sameTime, some, List.length_append, List.length_singleton]
  simp only [sameState]
  rfl

/-- The turns that do not end a call lead from the state after some answers to the
state after one more. -/
theorem turn_lineState_iff
    (room : (bytesRead before).length < bufferLength)
    {next : ReadLineState} :
    Turn bufferLength timeout_us stopOnDisconnect
        (socket.lineState bufferLength timeout_us before) outcome next ↔
      ((∀ value, outcome = .byte value → isTerminator value = false ∧
          (bytesRead before).length + 1 < bufferLength) ∧
        outcome ≠ .failed ∧ (stopOnDisconnect = true → outcome ≠ .closed)) ∧
        next = socket.lineState bufferLength timeout_us (before ++ [outcome]) := by
  constructor
  · intro turns
    cases turns with
    | interrupted =>
        refine ⟨by simp, ?_⟩
        rw [lineState_concat_of_not_byte rfl]
        simp [lineState, ReadOutcome.isIdle]
    | wouldBlock =>
        refine ⟨by simp, ?_⟩
        rw [lineState_concat_of_not_byte rfl]
        simp [lineState, ReadOutcome.isIdle]
    | closed stays =>
        refine ⟨by simp [stays], ?_⟩
        rw [lineState_concat_of_not_byte rfl]
        simp [lineState, ReadOutcome.isIdle]
    | byte value ordinary more =>
        refine ⟨⟨?_, by simp, by simp⟩, (lineState_concat_byte room value).symm⟩
        rintro other same
        cases same
        exact ⟨isTerminator_eq_false_iff.mpr ordinary, more⟩
  · rintro ⟨⟨goes, notFailed, stays⟩, rfl⟩
    cases outcome with
    | interrupted =>
        rw [lineState_concat_of_not_byte rfl]
        simpa [lineState, ReadOutcome.isIdle] using Turn.interrupted
    | wouldBlock =>
        rw [lineState_concat_of_not_byte rfl]
        simpa [lineState, ReadOutcome.isIdle] using Turn.wouldBlock
    | failed => exact absurd rfl notFailed
    | closed =>
        have stays : stopOnDisconnect = false := by
          rw [← Bool.not_eq_true]
          exact fun stops => stays stops rfl
        rw [lineState_concat_of_not_byte rfl]
        simpa [lineState, ReadOutcome.isIdle] using Turn.closed stays
    | byte value =>
        obtain ⟨ordinary, more⟩ := goes value rfl
        rw [lineState_concat_byte room]
        exact .byte value (isTerminator_eq_false_iff.mp ordinary) more

/-- A call goes on with some answers exactly if they keep it reading, and its state is
a function of them. -/
theorem readLineAfter_eq_some_iff
    (positive : 0 < bufferLength)
    {state : ReadLineState} :
    socket.readLineAfter bufferLength timeout_us stopOnDisconnect before = some state ↔
      KeepsReading bufferLength timeout_us stopOnDisconnect before ∧
        state = socket.lineState bufferLength timeout_us before := by
  induction before using List.reverseRecOn generalizing state with
  | nil =>
      have keeps : KeepsReading bufferLength timeout_us stopOnDisconnect [] :=
        ⟨List.forall_mem_nil _, positive, List.not_mem_nil, fun _ => List.not_mem_nil,
          fun first isFirst notEmpty => absurd (List.prefix_nil.mp isFirst) notEmpty⟩
      have start : socket.lineState bufferLength timeout_us [] =
          socket.lineStart bufferLength timeout_us := by
        simp [lineState, lineStart, bytesRead, timeLeft, sinceFirstByte]
      rw [start]
      simp only [keeps, true_and]
      exact Option.some_inj.trans eq_comm
  | append_singleton before outcome inductionHypothesis =>
      rw [readLineAfter, TurnLoop.after_concat_eq_some_iff, keepsReading_concat_iff]
      constructor
      · rintro ⟨middle, gone, turned⟩
        obtain ⟨keeps, rfl⟩ := inductionHypothesis.mp gone
        obtain ⟨turns, time⟩ := readLineTurn_eq_inr_iff.mp turned
        obtain ⟨⟨goes, notFailed, stays⟩, rfl⟩ := (turn_lineState_iff keeps.room).mp turns
        exact ⟨⟨keeps, goes, notFailed, stays, time⟩, rfl⟩
      · rintro ⟨⟨keeps, goes, notFailed, stays, time⟩, rfl⟩
        refine ⟨_, inductionHypothesis.mpr ⟨keeps, rfl⟩, ?_⟩
        rw [readLineTurn_eq_inr_iff, turn_lineState_iff keeps.room]
        exact ⟨⟨⟨goes, notFailed, stays⟩, rfl⟩, time⟩

/-- A call returns at the answer that does not keep it reading. -/
theorem readLineCall_eq_some_iff
    (positive : 0 < bufferLength)
    {outcomes rest : List ReadOutcome}
    {read : ReadResult} :
    socket.readLineCall bufferLength timeout_us stopOnDisconnect outcomes =
        some (read, rest) ↔
      ∃ before outcome, outcomes = before ++ outcome :: rest ∧
        KeepsReading bufferLength timeout_us stopOnDisconnect before ∧
        socket.readLineTurn bufferLength timeout_us stopOnDisconnect
          (socket.lineState bufferLength timeout_us before) outcome = .inl read := by
  rw [readLineCall, TurnLoop.call_eq_some_iff]
  constructor
  · rintro ⟨before, outcome, last, split, gone, returns⟩
    obtain ⟨keeps, rfl⟩ := (readLineAfter_eq_some_iff positive).mp gone
    exact ⟨before, outcome, split, keeps, returns⟩
  · rintro ⟨before, outcome, split, keeps, returns⟩
    exact ⟨before, outcome, _, split,
      (readLineAfter_eq_some_iff positive).mpr ⟨keeps, rfl⟩, returns⟩

/-! ## What a call returns -/

theorem textRead_append (first second : List ReadOutcome) :
    textRead (first ++ second) = textRead first ++ textRead second := by
  rw [textRead, bytesRead_append, List.filter_append]
  rfl

/-- Where no line ends, all that is read is text. -/
theorem textRead_eq_bytesRead
    {outcomes : List ReadOutcome}
    (ordinary : ∀ value ∈ bytesRead outcomes, isTerminator value = false) :
    textRead outcomes = bytesRead outcomes := by
  rw [textRead, List.filter_eq_self]
  intro value isRead
  rw [ordinary value isRead]
  rfl

/-- An end of file that stops a call is its last answer. -/
theorem closed_mem_concat_iff
    (keeps : KeepsReading bufferLength timeout_us stopOnDisconnect before) :
    (stopOnDisconnect = true ∧ ReadOutcome.closed ∈ before ++ [outcome]) ↔
      stopOnDisconnect = true ∧ outcome = .closed := by
  refine and_congr_right fun stops => ?_
  rw [List.mem_append, List.mem_singleton]
  constructor
  · rintro (isBefore | isLast)
    · exact absurd isBefore (keeps.connected stops)
    · exact isLast.symm
  · rintro rfl
    exact .inr rfl

/-- The buffer and the count at the end of a call. -/
theorem result_of_readLineTurn
    (keeps : KeepsReading bufferLength timeout_us stopOnDisconnect before)
    {read : ReadResult}
    (returns : socket.readLineTurn bufferLength timeout_us stopOnDisconnect
      (socket.lineState bufferLength timeout_us before) outcome = .inl read) :
    read.rcvBuffer = textRead (before ++ [outcome]) ++
        List.replicate (bufferLength - (textRead (before ++ [outcome])).length) 0 ∧
      (textRead (before ++ [outcome])).length ≤ bufferLength ∧
      read.numRead =
        if stopOnDisconnect = true ∧ outcome = .closed then -1
        else ((textRead (before ++ [outcome])).length : Int) := by
  have room := keeps.room
  have holds := @holds_lineState socket _ timeout_us _ room
  rw [textRead_append, textRead_eq_bytesRead keeps.ordinary]
  rcases readLineTurn_eq_inl_iff.mp returns with
    ⟨answer, numRead, last, ends, rfl⟩ | ⟨next, turns, -, rfl⟩
  · cases ends with
    | failed =>
        have nothing : textRead [.failed] = [] := rfl
        rw [nothing, List.append_nil]
        exact ⟨rfl, Nat.le_of_lt room, (if_neg (by simp)).symm⟩
    | closed stops =>
        have nothing : textRead [.closed] = [] := rfl
        rw [nothing, List.append_nil]
        exact ⟨rfl, Nat.le_of_lt room, (if_pos ⟨stops, rfl⟩).symm⟩
    | endOfLine value ending =>
        have nothing : textRead [.byte value] = [] := by
          have ends : isTerminator value = true := decide_eq_true ending
          simp [textRead, bytesRead, ends]
        rw [nothing, List.append_nil]
        refine ⟨?_, Nat.le_of_lt room, (if_neg (by simp)).symm⟩
        exact (List.set_set _).trans holds.set_zero
    | full value ordinary full =>
        have more : textRead [.byte value] = [value] := by
          have goes : isTerminator value = false := isTerminator_eq_false_iff.mpr ordinary
          simp [textRead, bytesRead, goes]
        rw [more, List.length_append, List.length_singleton]
        refine ⟨?_, room, (if_neg (by simp)).symm⟩
        have stored := holds.set value
        rw [List.length_append, List.length_singleton] at stored
        exact stored
  · obtain ⟨⟨goes, -, stays⟩, rfl⟩ := (turn_lineState_iff room).mp turns
    have same : bytesRead before ++ textRead [outcome] =
        bytesRead (before ++ [outcome]) := by
      rw [← textRead_eq_bytesRead keeps.ordinary, ← textRead_append]
      exact textRead_eq_bytesRead
        (keeps.ordinary_concat fun value same => (goes value same).1)
    rw [same]
    refine ⟨rfl, ?_, (if_neg fun both => stays both.1 both.2).symm⟩
    exact Nat.le_of_lt (length_bytesRead_concat_lt room fun value same => (goes value same).2)

/-- The place of the buffer that a turn stores a byte at. -/
def storesAt (state : ReadLineState) : ReadOutcome → Option Nat
  | .byte _ => some state.numRead
  | .closed | .interrupted | .wouldBlock | .failed => none

/-- A call of `readLine` stores every byte within the buffer, and what it returns is
what it has read: the bytes that end no line, with zero bytes behind them, and their
number, or -1 exactly if it stops at an end of file. -/
theorem readLine_stores
    (socket : LinuxSocket)
    {bufferLength : Nat}
    (positive : 0 < bufferLength)
    (timeout_us : Int)
    (stopOnDisconnect : Bool)
    (outcomes : List ReadOutcome) :
    (∀ before outcome after state index, outcomes = before ++ outcome :: after →
      socket.readLineAfter bufferLength timeout_us stopOnDisconnect before =
          some state →
        storesAt state outcome = some index → index < bufferLength) ∧
      ∀ read,
        socket.readLine bufferLength timeout_us stopOnDisconnect outcomes = some read →
          ∃ consumed rest, outcomes = consumed ++ rest ∧
            socket.readLineCall bufferLength timeout_us stopOnDisconnect outcomes =
              some (read, rest) ∧
            read.rcvBuffer = textRead consumed ++
              List.replicate (bufferLength - (textRead consumed).length) 0 ∧
            read.rcvBuffer.length = bufferLength ∧
            (read.numRead = -1 ↔
              stopOnDisconnect = true ∧ ReadOutcome.closed ∈ consumed) ∧
            (read.numRead ≠ -1 → read.numRead = (textRead consumed).length) := by
  constructor
  · intro before outcome after state index split gone stores
    obtain ⟨keeps, rfl⟩ := (readLineAfter_eq_some_iff positive).mp gone
    cases outcome with
    | byte value =>
        cases stores
        exact keeps.room
    | closed | interrupted | wouldBlock | failed => cases stores
  · intro read returned
    rw [readLine_eq, Option.map_eq_some_iff] at returned
    obtain ⟨⟨read, rest⟩, called, rfl⟩ := returned
    obtain ⟨before, outcome, rfl, keeps, returns⟩ :=
      (readLineCall_eq_some_iff positive).mp called
    obtain ⟨buffer, fits, count⟩ := result_of_readLineTurn keeps returns
    refine ⟨before ++ [outcome], rest, by simp, called, buffer, ?_, ?_, ?_⟩
    · rw [buffer, List.length_append, List.length_replicate]
      omega
    · rw [count, closed_mem_concat_iff keeps]
      split
      · next stopped => exact iff_of_true rfl stopped
      · next stays => exact iff_of_false (by omega) stays
    · intro some
      rw [count] at some ⊢
      exact if_neg fun stopped => some (if_pos stopped)

/-- A call that reads one byte of two, and meets the end of the file. -/
theorem readLine_stores_closed :
    (∀ before outcome after state index,
      [ReadOutcome.byte 0x41, .closed] = before ++ outcome :: after →
      LinuxSocket.new.readLineAfter 2 1000 true before = some state →
        storesAt state outcome = some index → index < 2) ∧
      ∀ read,
        LinuxSocket.new.readLine 2 1000 true [.byte 0x41, .closed] = some read →
          ∃ consumed rest, [ReadOutcome.byte 0x41, .closed] = consumed ++ rest ∧
            LinuxSocket.new.readLineCall 2 1000 true [.byte 0x41, .closed] =
              some (read, rest) ∧
            read.rcvBuffer = textRead consumed ++
              List.replicate (2 - (textRead consumed).length) 0 ∧
            read.rcvBuffer.length = 2 ∧
            (read.numRead = -1 ↔ true = true ∧ ReadOutcome.closed ∈ consumed) ∧
            (read.numRead ≠ -1 → read.numRead = (textRead consumed).length) :=
  readLine_stores LinuxSocket.new (by decide) 1000 true [.byte 0x41, .closed]

end State

end LinuxSocket
end ProtobufSandbox
