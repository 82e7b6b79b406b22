import ProtobufSandbox.Protocol.RequestLeg

/-!
# Short writes

A connection that data is sent on, call after call of `sendData`. The kernel may take
any beginning of the data of a call, which still returns true, so that the bytes taken
are the data of the calls that returned true exactly if no call is cut short.
-/

namespace ProtobufSandbox

open TransitionSystem

/-- A call of `sendData`: its data, and the answer of `send`, which takes no more than
it is given. -/
structure SendDataCall where
  data : Bytes
  taken : Option Nat
  fits : ∀ count ∈ taken, count ≤ data.length

/-- A call of `sendData` that has returned, with the bytes that the kernel took. -/
structure SentData where
  data : Bytes
  returns : Bool
  accepted : Bytes

/-- A connection that data is sent on, and the calls so far. -/
structure SendConnection where
  socket : LinuxSocket
  sent : List SentData

namespace SendConnection

/-- A call of `sendData`. -/
def step (connection : SendConnection) (call : SendDataCall) : Option SendConnection :=
  let result := connection.socket.sendData call.data call.taken
  some
    { socket := result.socket
      sent := connection.sent ++
        [{ data := call.data
           returns := result.returns
           accepted := transmitted result.calls }] }

/-- A call that returned true had all its data taken, and what was taken is the data of
the calls that returned true. -/
def AllOrNothing (connection : SendConnection) : Prop :=
  (∀ call ∈ connection.sent, call.returns = true → call.accepted = call.data) ∧
    connection.sent.flatMap SentData.accepted =
      (connection.sent.filter SentData.returns).flatMap SentData.data

end SendConnection

/-- The kernel takes less than the data of the call. -/
def ShortWrite (socket : LinuxSocket) (call : SendDataCall) : Prop :=
  socket.clientSock ≠ invalidSocket ∧ ∃ count, call.taken = some count ∧ count < call.data.length

/-- A call is all or nothing unless it is cut short. -/
theorem transmitted_sendData_iff (socket : LinuxSocket) (call : SendDataCall) :
    transmitted (socket.sendData call.data call.taken).calls =
        (if (socket.sendData call.data call.taken).returns then call.data else []) ↔
      ¬ ShortWrite socket call := by
  unfold LinuxSocket.sendData ShortWrite
  by_cases empty : call.data.length = 0
  · rw [if_pos empty, List.length_eq_zero_iff.mp empty]
    simp [transmitted]
  · rw [if_neg empty]
    by_cases invalid : socket.clientSock = invalidSocket
    · rw [if_pos invalid]
      simp [transmitted, invalid]
    · rw [if_neg invalid]
      cases taken : call.taken with
      | none => simp [transmitted]
      | some count =>
          simp [transmitted, invalid, List.take_eq_self_iff]

namespace SendConnection

variable {connection next : SendConnection} {call : SendDataCall}

/-- One more call. -/
theorem allOrNothing_step_iff
    (before : connection.AllOrNothing)
    (stepped : connection.step call = some next) :
    next.AllOrNothing ↔ ¬ ShortWrite connection.socket call := by
  rw [← transmitted_sendData_iff]
  cases stepped
  obtain ⟨each, whole⟩ := before
  simp only [AllOrNothing, List.forall_mem_append, List.forall_mem_singleton,
    List.flatMap_append, List.filter_append, List.flatMap_singleton, whole,
    List.append_cancel_left_eq]
  cases returned : (connection.socket.sendData call.data call.taken).returns with
  | true =>
      rw [List.filter_singleton]
      simp only [cond_true, List.flatMap_singleton, if_true, forall_const]
      exact ⟨fun both => both.2, fun taken => ⟨⟨each, taken⟩, taken⟩⟩
  | false =>
      rw [List.filter_singleton]
      simp only [cond_false, List.flatMap_nil]
      exact ⟨fun both => both.2, fun taken => ⟨⟨each, fun absurd => nomatch absurd⟩, taken⟩⟩

/-- A call leaves the socket alone. -/
theorem socket_step (stepped : connection.step call = some next) :
    next.socket = connection.socket := by
  cases stepped
  unfold LinuxSocket.sendData
  split
  · rfl
  · split <;> rfl

/-- Every run is performed. -/
theorem exists_run (connection : SendConnection) (calls : List SendDataCall) :
    ∃ last, run step connection calls = some last := by
  induction calls generalizing connection with
  | nil => exact ⟨connection, rfl⟩
  | cons call calls inductionHypothesis => exact inductionHypothesis _

end SendConnection

/-- Over a run of calls `sendData` is all or nothing exactly if no call is cut
short. -/
theorem allOrNothing_iff (socket : LinuxSocket) (calls : List SendDataCall) :
    Along SendConnection.step SendConnection.AllOrNothing ⟨socket, []⟩ calls ↔
      ∀ call ∈ calls, ¬ ShortWrite socket call := by
  obtain ⟨last, performed⟩ := SendConnection.exists_run ⟨socket, []⟩ calls
  have same (connection next : SendConnection) (call : SendDataCall)
      (before : connection.socket = socket)
      (stepped : connection.step call = some next) : next.socket = socket :=
    (SendConnection.socket_step stepped).trans before
  rw [← guarded_iff_forall performed]
  apply along_iff_guarded (fun connection call next => same connection next call)
  · intro connection call next before allOrNothing stepped
    rw [SendConnection.allOrNothing_step_iff allOrNothing stepped, before]
  · rfl
  · exact ⟨List.forall_mem_nil _, rfl⟩
  · exact performed

/-- Two bytes of which the kernel takes one. -/
theorem not_allOrNothing_short :
    ¬ Along SendConnection.step SendConnection.AllOrNothing
      ⟨{ LinuxSocket.new with clientSock := 5 }, []⟩
      [⟨[0x41, 0x42], some 1, by decide⟩] := by
  intro kept
  have last := kept.2 _ rfl
  cases last.1 _ List.mem_cons_self rfl

end ProtobufSandbox
