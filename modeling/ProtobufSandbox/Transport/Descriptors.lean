import ProtobufSandbox.Socket.Ownership
import ProtobufSandbox.Transport.SocketTransport

/-!
# Descriptors across the receive loop

The receive loop touches the descriptors only through the operations of the
socket class. It loses one exactly when it polls for a client while the
descriptor of the previous client is still in `m_ClientSock`.
-/

namespace ProtobufSandbox
namespace SocketTransport

/-- A poll for a client finds no descriptor of an earlier one. -/
def AcceptsIntoFreeSlot (transport : SocketTransport) : Prop :=
  transport.socket.connectionState = .serverPortSetup →
    transport.socket.ClientSlotFree

/-- A poll keeps track of the descriptors, and loses none exactly if it accepts
into a free slot. -/
theorem tracked_updateRx
    {transport : SocketTransport}
    {outcome : RxOutcome}
    {result : RxResult}
    {ledger next : Ledger}
    (tracked : transport.socket.Tracked ledger)
    (updated : transport.updateRx outcome = some result)
    (recorded : ledger.recordAll result.calls = some next) :
    result.transport.socket.Tracked next ∧
      (transport.socket.Owned ledger →
        (result.transport.socket.Owned next ↔
          transport.AcceptsIntoFreeSlot)) := by
  have kept
      (elsewhere : transport.socket.connectionState ≠ .serverPortSetup)
      (losesNone : result.transport.socket.Tracked next ∧
        (transport.socket.Owned ledger →
          result.transport.socket.Owned next)) :
      result.transport.socket.Tracked next ∧
        (transport.socket.Owned ledger →
          (result.transport.socket.Owned next ↔
            transport.AcceptsIntoFreeSlot)) :=
    ⟨losesNone.1, fun owned =>
      ⟨fun _ setup => absurd setup elsewhere, fun _ => losesNone.2 owned⟩⟩
  have stepped := socketStep_of_updateRx updated
  generalize result.transport.socket = socket at stepped kept ⊢
  generalize result.calls = calls at stepped recorded
  cases stepped with
  | accept between =>
      have listened := tracked.listenForClient recorded
      refine ⟨listened.1, fun owned => (listened.2 owned).trans ?_⟩
      exact ⟨fun free _ => free, fun free => free between⟩
  | goOn connectionState elsewhere =>
      obtain rfl := LinuxSocket.recordAll_nil.mp recorded
      exact kept elsewhere ⟨tracked.of_descriptors_eq rfl rfl,
        fun owned => owned.of_descriptors_eq rfl rfl⟩
  | reset connectionState elsewhere =>
      have sameDescriptors :
          ({ transport.socket with connectionState := connectionState } :
            LinuxSocket).Tracked ledger :=
        tracked.of_descriptors_eq rfl rfl
      have reset := sameDescriptors.resetConnection recorded
      exact kept elsewhere ⟨reset.1,
        fun owned => reset.2 (owned.of_descriptors_eq rfl rfl)⟩

end SocketTransport

/-! ## The receive loop with its ledger -/

/-- A transport in use, with the ledger of the system calls its socket made. -/
structure Serving where
  transport : SocketTransport
  ledger : Ledger

namespace Serving

/-- One turn of the receive loop. -/
def step (serving : Serving) (outcome : RxOutcome) : Option Serving :=
  (serving.transport.updateRx outcome).bind fun result =>
    (serving.ledger.recordAll result.calls).map fun ledger =>
      { transport := result.transport, ledger := ledger }

/-- The socket of the transport keeps track of its descriptors. -/
def Tracked (serving : Serving) : Prop :=
  serving.transport.socket.Tracked serving.ledger

/-- The socket of the transport holds exactly the open descriptors. -/
def Owned (serving : Serving) : Prop :=
  serving.transport.socket.Owned serving.ledger

/-- One turn keeps track of the descriptors, and loses none exactly if it
accepts into a free slot. -/
theorem Tracked.step
    {serving next : Serving}
    {outcome : RxOutcome}
    (tracked : serving.Tracked)
    (stepped : serving.step outcome = some next) :
    next.Tracked ∧
      (serving.Owned →
        (next.Owned ↔ serving.transport.AcceptsIntoFreeSlot)) := by
  unfold Serving.step at stepped
  obtain ⟨result, updated, rest⟩ := Option.bind_eq_some_iff.mp stepped
  obtain ⟨ledger, recorded, rfl⟩ := Option.map_eq_some_iff.mp rest
  exact SocketTransport.tracked_updateRx tracked updated recorded

/-- The receive loop owns its descriptors throughout exactly if every accept in
it is made into a free slot. -/
theorem along_owned_iff
    {serving final : Serving}
    {outcomes : List RxOutcome}
    (tracked : serving.Tracked)
    (owned : serving.Owned)
    (performed : TransitionSystem.run step serving outcomes = some final) :
    TransitionSystem.Along step Owned serving outcomes ↔
      TransitionSystem.Guarded step
        (fun serving _ => serving.transport.AcceptsIntoFreeSlot)
        serving outcomes := by
  refine TransitionSystem.along_iff_guarded ?_ ?_ tracked owned performed
  · exact fun _ _ _ holds stepped => (Tracked.step holds stepped).1
  · exact fun _ _ _ holds owns stepped => (Tracked.step holds stepped).2 owns

end Serving

/-- After one `init`, descriptors are neither lost nor closed twice, in a run of
socket operations and in a run of the receive loop, exactly if every accept is
made while `m_ClientSock` is free. -/
theorem owned_iff_accepts_into_free_slot
    {mode : ConnectionMode}
    {port : Int}
    {outcome : InitOutcome}
    {holding : Holding}
    (initialised : Holding.afterInit mode port outcome = some holding) :
    (∀ operations final,
      TransitionSystem.run Holding.step holding operations = some final →
        (TransitionSystem.Along Holding.step Holding.Owned holding operations ↔
          TransitionSystem.Guarded Holding.step
            (fun holding operation =>
              holding.socket.AcceptsIntoFreeSlot operation)
            holding operations)) ∧
      (∀ (transport : SocketTransport) outcomes final,
        transport.socket = holding.socket →
        TransitionSystem.run Serving.step
          { transport := transport, ledger := holding.ledger } outcomes =
            some final →
          (TransitionSystem.Along Serving.step Serving.Owned
              { transport := transport, ledger := holding.ledger } outcomes ↔
            TransitionSystem.Guarded Serving.step
              (fun serving _ => serving.transport.AcceptsIntoFreeSlot)
              { transport := transport, ledger := holding.ledger }
              outcomes)) := by
  obtain ⟨tracked, owned⟩ := Holding.owned_afterInit initialised
  constructor
  · intro operations final performed
    exact Holding.along_owned_iff tracked owned performed
  · intro transport outcomes final uses performed
    refine Serving.along_owned_iff ?_ ?_ performed
    · exact tracked.of_descriptors_eq (congrArg _ uses) (congrArg _ uses)
    · exact owned.of_descriptors_eq (congrArg _ uses) (congrArg _ uses)

/-- A server that accepts a client as descriptor 5, sees it leave and polls for
the next one no longer holds descriptor 5, and never closed it. -/
theorem accept_over_client_loses_descriptor :
    ¬ ∀ mode port outcome holding outcomes final,
      Holding.afterInit mode port outcome = some holding →
        TransitionSystem.run Serving.step
          { transport := .new holding.socket, ledger := holding.ledger }
          outcomes = some final →
            final.Owned := by
  intro claim
  have owned :=
    claim .server 12070 (.listening 3) _
      [polled 5 .wouldBlock, polled (-1) .closed, polled (-1) .wouldBlock] _
      rfl rfl
  exact absurd owned.1 (by decide)

/-- A client that is accepted and leaves, seen by a server that stops there: no
accept was made over its descriptor, and none is lost. -/
theorem owned_iff_accepts_into_free_slot_one_client :
    ∃ holding, Holding.afterInit .server 12070 (.listening 3) = some holding ∧
      TransitionSystem.Along Serving.step Serving.Owned
        { transport := .new holding.socket, ledger := holding.ledger }
        [polled 5 .wouldBlock, polled (-1) .closed] := by
  refine ⟨_, rfl, ?_⟩
  refine
    ((owned_iff_accepts_into_free_slot
      (show Holding.afterInit .server 12070 (.listening 3) = some _ from
        rfl)).2 _ _ _ rfl rfl).mpr ?_
  refine TransitionSystem.Guarded.cons rfl (fun _ _ _ => rfl) ?_
  refine TransitionSystem.Guarded.cons rfl ?_ trivial
  exact fun setup => absurd setup (by decide)

end ProtobufSandbox
