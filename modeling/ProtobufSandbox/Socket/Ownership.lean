import Mathlib.Data.Finset.Basic
import ProtobufSandbox.Foundation.TransitionSystem
import ProtobufSandbox.Socket.LinuxSocket

/-!
# Ownership of descriptors

A ledger follows the log of system calls and keeps the descriptors that were
obtained and not yet closed. The socket class is meant to hold exactly these in
its two fields. Every operation keeps that property, except an accept that
stores its answer over a client descriptor the object still holds.
-/

namespace ProtobufSandbox

/-- The descriptors obtained from the kernel and not yet closed, and those that
were closed without being open. -/
structure Ledger where
  opened : Finset Int
  strayCloses : List Int

namespace Ledger

/-- Before any call. -/
def empty : Ledger where
  opened := ∅
  strayCloses := []

/-- Enter a system call. A new descriptor is a number that is not in use; a log
in which the kernel answers otherwise has no ledger. -/
def record (ledger : Ledger) : SysCall → Option Ledger
  | .socket descriptor | .accept descriptor =>
      if 0 ≤ descriptor ∧ descriptor ∉ ledger.opened then
        some { ledger with opened := insert descriptor ledger.opened }
      else none
  | .close descriptor =>
      some
        { opened := ledger.opened.erase descriptor
          strayCloses :=
            if descriptor ∈ ledger.opened then ledger.strayCloses
            else descriptor :: ledger.strayCloses }
  | .send _ _ _ => some ledger

/-- Enter a log of system calls. -/
def recordAll (ledger : Ledger) (calls : List SysCall) : Option Ledger :=
  TransitionSystem.run record ledger calls

end Ledger

namespace LinuxSocket

/-- The descriptors an object holds. -/
def held (socket : LinuxSocket) : Finset Int :=
  ({socket.serverSock, socket.clientSock} : Finset Int).erase invalidSocket

/-- An operation of the socket class with the answers of its system calls. -/
inductive Operation
  | listenForClient (accepted : Int)
  | readBlock (rcvBuffer : Bytes) (limit : Nat) (outcome : RecvOutcome limit)
  | readLine
      (bufferLength : Nat)
      (timeout_us : Int)
      (stopOnDisconnect : Bool)
      (outcomes : List ReadOutcome)
  | sendData (data : Bytes) (taken : Option Nat)
  | resetConnection (outcome : ReconnectOutcome)
  | closeConnection

/-- Perform an operation: the object after it and its system calls. -/
def perform (socket : LinuxSocket) :
    Operation → Option (LinuxSocket × List SysCall)
  | .listenForClient accepted =>
      let result := socket.listenForClient accepted
      some (result.socket, result.calls)
  | .readBlock rcvBuffer _ outcome =>
      some ((socket.readBlock rcvBuffer outcome).socket, [])
  | .readLine bufferLength timeout_us stopOnDisconnect outcomes =>
      (socket.readLine bufferLength timeout_us stopOnDisconnect outcomes).map
        fun read => (read.socket, [])
  | .sendData data taken =>
      let result := socket.sendData data taken
      some (result.socket, result.calls)
  | .resetConnection outcome =>
      let result := socket.resetConnection outcome
      some (result.socket, result.calls)
  | .closeConnection =>
      let result := socket.closeConnection
      some (result.socket, result.calls)

/-- What holds of an object and the ledger whatever operations were performed:
its descriptors are open and different, and nothing was closed twice. -/
structure Tracked (socket : LinuxSocket) (ledger : Ledger) : Prop where
  server : socket.serverSock ≠ invalidSocket →
    socket.serverSock ∈ ledger.opened
  client : socket.clientSock ≠ invalidSocket →
    socket.clientSock ∈ ledger.opened
  distinct : socket.serverSock ≠ invalidSocket →
    socket.serverSock ≠ socket.clientSock
  valid : ∀ descriptor ∈ ledger.opened, descriptor ≠ invalidSocket
  closedOnce : ledger.strayCloses = []

/-- The open descriptors are exactly those the object holds, and nothing was
closed twice. -/
def Owned (socket : LinuxSocket) (ledger : Ledger) : Prop :=
  ledger.opened = socket.held ∧ ledger.strayCloses = []

/-- Ownership says that no open descriptor is lost. -/
theorem Tracked.owned_iff
    {socket : LinuxSocket}
    {ledger : Ledger}
    (tracked : socket.Tracked ledger) :
    socket.Owned ledger ↔
      ∀ descriptor ∈ ledger.opened,
        descriptor = socket.serverSock ∨ descriptor = socket.clientSock := by
  simp only [Owned, tracked.closedOnce, and_true, held]
  constructor
  · intro equality descriptor isOpen
    rw [equality] at isOpen
    simp only [Finset.mem_erase, Finset.mem_insert, Finset.mem_singleton]
      at isOpen
    exact isOpen.2
  · intro holders
    ext descriptor
    simp only [Finset.mem_erase, Finset.mem_insert, Finset.mem_singleton]
    constructor
    · intro isOpen
      exact ⟨tracked.valid descriptor isOpen, holders descriptor isOpen⟩
    · rintro ⟨notInvalid, rfl | rfl⟩
      · exact tracked.server notInvalid
      · exact tracked.client notInvalid

/-- The record of a call that opens a descriptor. -/
theorem recordAll_socket
    {ledger next : Ledger}
    {descriptor : Int}
    {calls : List SysCall} :
    ledger.recordAll (.socket descriptor :: calls) = some next ↔
      (0 ≤ descriptor ∧ descriptor ∉ ledger.opened) ∧
        ({ ledger with opened := insert descriptor ledger.opened } :
          Ledger).recordAll calls = some next := by
  unfold Ledger.recordAll
  rw [TransitionSystem.run_cons_eq_some]
  simp [Ledger.record, and_assoc]

/-- A closed descriptor that was open leaves the ledger. -/
theorem recordAll_close
    {ledger next : Ledger}
    {descriptor : Int}
    {calls : List SysCall}
    (isOpen : descriptor ∈ ledger.opened) :
    ledger.recordAll (.close descriptor :: calls) = some next ↔
      ({ ledger with opened := ledger.opened.erase descriptor } :
        Ledger).recordAll calls = some next := by
  unfold Ledger.recordAll
  rw [TransitionSystem.run_cons_eq_some]
  simp [Ledger.record, isOpen]

@[simp] theorem recordAll_nil
    {ledger next : Ledger} :
    ledger.recordAll [] = some next ↔ ledger = next := by
  simp [Ledger.recordAll]

/-- Tracking depends on the descriptors only. -/
theorem Tracked.of_descriptors_eq
    {socket next : LinuxSocket}
    {ledger : Ledger}
    (tracked : socket.Tracked ledger)
    (server : next.serverSock = socket.serverSock)
    (client : next.clientSock = socket.clientSock) :
    next.Tracked ledger := by
  refine ⟨?_, ?_, ?_, tracked.valid, tracked.closedOnce⟩
  · simpa only [server] using tracked.server
  · simpa only [client] using tracked.client
  · simpa only [server, client] using tracked.distinct

/-- Ownership depends on the descriptors only. -/
theorem Owned.of_descriptors_eq
    {socket next : LinuxSocket}
    {ledger : Ledger}
    (owned : socket.Owned ledger)
    (server : next.serverSock = socket.serverSock)
    (client : next.clientSock = socket.clientSock) :
    next.Owned ledger := by
  simpa only [Owned, held, server, client] using owned

/-- Closing the client descriptor, as `reconnect` and `closeConnection` begin. -/
theorem Tracked.closeClient
    {socket : LinuxSocket}
    {ledger next : Ledger}
    {calls : List SysCall}
    (tracked : socket.Tracked ledger)
    (recorded :
      ledger.recordAll
        ((if socket.clientSock ≠ invalidSocket then
          [SysCall.close socket.clientSock] else []) ++ calls) = some next) :
    ∃ closed : Ledger, closed.recordAll calls = some next ∧
      ({ socket with clientSock := invalidSocket } : LinuxSocket).Tracked
        closed ∧
      (socket.Owned ledger →
        ({ socket with clientSock := invalidSocket } : LinuxSocket).Owned
          closed) := by
  by_cases isHeld : socket.clientSock ≠ invalidSocket
  · rw [if_pos isHeld, List.singleton_append,
      recordAll_close (tracked.client isHeld)] at recorded
    have closedTracked :
        ({ socket with clientSock := invalidSocket } : LinuxSocket).Tracked
          { ledger with opened := ledger.opened.erase socket.clientSock } := by
      refine ⟨?_, by simp, ?_, ?_, tracked.closedOnce⟩
      · intro serverHeld
        exact Finset.mem_erase.mpr
          ⟨tracked.distinct serverHeld, tracked.server serverHeld⟩
      · exact fun serverHeld => serverHeld
      · intro descriptor isOpen
        exact tracked.valid descriptor (Finset.mem_of_mem_erase isOpen)
    refine ⟨_, recorded, closedTracked, fun owned => ?_⟩
    rw [closedTracked.owned_iff]
    intro descriptor isOpen
    obtain ⟨different, isOpen⟩ := Finset.mem_erase.mp isOpen
    rcases tracked.owned_iff.mp owned descriptor isOpen with server | client
    · exact Or.inl server
    · exact absurd client different
  · rw [if_neg isHeld, List.nil_append] at recorded
    have same : socket.clientSock = invalidSocket := not_not.mp isHeld
    exact ⟨ledger, recorded, tracked.of_descriptors_eq rfl same.symm,
      fun owned => owned.of_descriptors_eq rfl same.symm⟩

/-- Storing a new client descriptor. -/
theorem Tracked.openClient
    {socket : LinuxSocket}
    {ledger : Ledger}
    {descriptor : Int}
    (tracked : socket.Tracked ledger)
    (nonnegative : 0 ≤ descriptor)
    (fresh : descriptor ∉ ledger.opened) :
    ({ socket with clientSock := descriptor } : LinuxSocket).Tracked
      { ledger with opened := insert descriptor ledger.opened } := by
  refine ⟨?_, ?_, ?_, ?_, tracked.closedOnce⟩
  · intro serverHeld
    exact Finset.mem_insert_of_mem (tracked.server serverHeld)
  · exact fun _ => Finset.mem_insert_self _ _
  · intro serverHeld same
    have sameDescriptor : socket.serverSock = descriptor := same
    exact fresh (sameDescriptor ▸ tracked.server serverHeld)
  · intro other isOpen
    rcases Finset.mem_insert.mp isOpen with rfl | wasOpen
    · unfold invalidSocket
      omega
    · exact tracked.valid other wasOpen

/-- A new client descriptor loses nothing exactly if none was held before. -/
theorem Tracked.openClient_owned_iff
    {socket : LinuxSocket}
    {ledger : Ledger}
    {descriptor : Int}
    (tracked : socket.Tracked ledger)
    (owned : socket.Owned ledger)
    (nonnegative : 0 ≤ descriptor)
    (fresh : descriptor ∉ ledger.opened) :
    ({ socket with clientSock := descriptor } : LinuxSocket).Owned
        { ledger with opened := insert descriptor ledger.opened } ↔
      socket.clientSock = invalidSocket := by
  rw [(tracked.openClient nonnegative fresh).owned_iff]
  constructor
  · intro holders
    by_contra isHeld
    have isOpen := tracked.client isHeld
    rcases holders _ (Finset.mem_insert_of_mem isOpen) with server | client
    · have sameServer : socket.clientSock = socket.serverSock := server
      exact tracked.distinct (sameServer ▸ isHeld) sameServer.symm
    · have sameClient : socket.clientSock = descriptor := client
      exact fresh (sameClient ▸ isOpen)
  · intro noneHeld other isOpen
    rcases Finset.mem_insert.mp isOpen with rfl | wasOpen
    · exact Or.inr rfl
    · rcases tracked.owned_iff.mp owned other wasOpen with server | client
      · exact Or.inl server
      · exact absurd (client.trans noneHeld) (tracked.valid other wasOpen)

/-- `reconnect` keeps track of its descriptors, and loses none. -/
theorem Tracked.reconnect
    {socket : LinuxSocket}
    {ledger next : Ledger}
    {outcome : ReconnectOutcome}
    (tracked : socket.Tracked ledger)
    (recorded :
      ledger.recordAll (socket.reconnect outcome).calls = some next) :
    (socket.reconnect outcome).socket.Tracked next ∧
      (socket.Owned ledger → (socket.reconnect outcome).socket.Owned next) := by
  unfold LinuxSocket.reconnect at recorded ⊢
  by_cases noSocket : outcome.socket = -1
  · simp only [if_pos noSocket] at recorded ⊢
    rw [← List.append_nil (ite _ _ _)] at recorded
    obtain ⟨closed, rest, closedTracked, closedOwned⟩ :=
      tracked.closeClient recorded
    rw [recordAll_nil] at rest
    rw [← rest]
    exact ⟨closedTracked, closedOwned⟩
  · simp only [if_neg noSocket] at recorded ⊢
    by_cases optionFailed : outcome.setsockopt = false
    · simp only [if_pos optionFailed] at recorded ⊢
      obtain ⟨closed, rest, closedTracked, closedOwned⟩ :=
        tracked.closeClient recorded
      obtain ⟨⟨_, fresh⟩, rest⟩ := recordAll_socket.mp rest
      rw [recordAll_close (Finset.mem_insert_self _ _), recordAll_nil] at rest
      rw [← rest, Finset.erase_insert fresh]
      exact ⟨closedTracked, closedOwned⟩
    · simp only [if_neg optionFailed] at recorded ⊢
      obtain ⟨closed, rest, closedTracked, closedOwned⟩ :=
        tracked.closeClient recorded
      obtain ⟨⟨nonnegative, fresh⟩, rest⟩ := recordAll_socket.mp rest
      rw [recordAll_nil] at rest
      rw [← rest]
      exact ⟨closedTracked.openClient nonnegative fresh, fun owned =>
        (closedTracked.openClient_owned_iff (closedOwned owned) nonnegative
          fresh).mpr rfl⟩

/-- `resetConnection` keeps track of its descriptors, and loses none. -/
theorem Tracked.resetConnection
    {socket : LinuxSocket}
    {ledger next : Ledger}
    {outcome : ReconnectOutcome}
    (tracked : socket.Tracked ledger)
    (recorded :
      ledger.recordAll (socket.resetConnection outcome).calls = some next) :
    (socket.resetConnection outcome).socket.Tracked next ∧
      (socket.Owned ledger →
        (socket.resetConnection outcome).socket.Owned next) := by
  unfold LinuxSocket.resetConnection at recorded ⊢
  cases mode : socket.connectionMode with
  | client =>
      simp only [mode] at recorded ⊢
      have kept := tracked.reconnect recorded
      exact ⟨kept.1.of_descriptors_eq rfl rfl, fun owned =>
        (kept.2 owned).of_descriptors_eq rfl rfl⟩
  | server =>
      simp only [mode] at recorded ⊢
      split at recorded
      · next noPort =>
          rw [recordAll_nil] at recorded
          simpa only [if_pos noPort, ← recorded] using
            And.intro tracked (fun owned : socket.Owned ledger => owned)
      · next port =>
          rw [recordAll_nil] at recorded
          simp only [if_neg port, ← recorded]
          exact ⟨tracked.of_descriptors_eq rfl rfl, fun owned =>
            owned.of_descriptors_eq rfl rfl⟩

/-- The accept of this object would store its answer over a client descriptor
only if it holds none. -/
def ClientSlotFree (socket : LinuxSocket) : Prop :=
  socket.connectionMode = .server → socket.serverSock ≠ invalidSocket →
    socket.clientSock = invalidSocket

/-- `listenForClient` keeps track of its descriptors, and loses none exactly if
the client slot is free. -/
theorem Tracked.listenForClient
    {socket : LinuxSocket}
    {ledger next : Ledger}
    {accepted : Int}
    (tracked : socket.Tracked ledger)
    (recorded :
      ledger.recordAll (socket.listenForClient accepted).calls = some next) :
    (socket.listenForClient accepted).socket.Tracked next ∧
      (socket.Owned ledger →
        ((socket.listenForClient accepted).socket.Owned next ↔
          socket.ClientSlotFree)) := by
  unfold LinuxSocket.listenForClient at recorded ⊢
  by_cases listening :
      socket.connectionMode = .server ∧ socket.serverSock ≠ invalidSocket
  · simp only [if_pos listening] at recorded ⊢
    have slotFree :
        socket.ClientSlotFree ↔ socket.clientSock = invalidSocket :=
      ⟨fun free => free listening.1 listening.2, fun free _ _ => free⟩
    by_cases obtained : accepted ≠ invalidSocket
    · simp only [if_pos obtained] at recorded ⊢
      change ledger.recordAll [.socket accepted] = some next at recorded
      obtain ⟨⟨nonnegative, fresh⟩, rest⟩ := recordAll_socket.mp recorded
      rw [recordAll_nil] at rest
      rw [← rest, slotFree]
      refine ⟨(tracked.openClient nonnegative fresh).of_descriptors_eq rfl rfl,
        fun owned => ?_⟩
      rw [← tracked.openClient_owned_iff owned nonnegative fresh]
      rfl
    · have failed : accepted = invalidSocket := not_not.mp obtained
      simp only [if_neg obtained, recordAll_nil] at recorded ⊢
      rw [← recorded, slotFree]
      have cleared :
          ({ socket with clientSock := accepted } : LinuxSocket).Tracked
            ledger := by
        refine ⟨tracked.server, fun isHeld => absurd failed isHeld, ?_,
          tracked.valid, tracked.closedOnce⟩
        intro serverHeld
        exact failed.symm ▸ serverHeld
      refine ⟨cleared, fun owned => ?_⟩
      rw [cleared.owned_iff]
      constructor
      · intro holders
        by_contra isHeld
        rcases holders _ (tracked.client isHeld) with server | client
        · have sameServer : socket.clientSock = socket.serverSock := server
          exact tracked.distinct (sameServer ▸ isHeld) sameServer.symm
        · exact isHeld (client.trans failed)
      · intro noneHeld other isOpen
        rcases tracked.owned_iff.mp owned other isOpen with server | client
        · exact Or.inl server
        · exact absurd (client.trans noneHeld) (tracked.valid other isOpen)
  · simp only [if_neg listening, recordAll_nil] at recorded ⊢
    subst recorded
    refine ⟨tracked, fun owned => ⟨fun _ server valid => ?_, fun _ => owned⟩⟩
    exact absurd ⟨server, valid⟩ listening

/-- `closeConnection` keeps track of its descriptors, and loses none. -/
theorem Tracked.closeConnection
    {socket : LinuxSocket}
    {ledger next : Ledger}
    (tracked : socket.Tracked ledger)
    (recorded : ledger.recordAll socket.closeConnection.calls = some next) :
    socket.closeConnection.socket.Tracked next ∧
      (socket.Owned ledger → socket.closeConnection.socket.Owned next) := by
  unfold LinuxSocket.closeConnection at recorded ⊢
  obtain ⟨closed, rest, closedTracked, closedOwned⟩ :=
    tracked.closeClient recorded
  by_cases isHeld : socket.serverSock ≠ invalidSocket
  · rw [if_pos isHeld, recordAll_close (closedTracked.server isHeld),
      recordAll_nil] at rest
    rw [← rest]
    have emptied :
        ({ socket with
            clientSock := invalidSocket
            serverSock := invalidSocket } : LinuxSocket).Tracked
          { closed with opened := closed.opened.erase socket.serverSock } := by
      refine ⟨by simp, by simp, by simp, ?_, closedTracked.closedOnce⟩
      intro descriptor isOpen
      exact closedTracked.valid descriptor (Finset.mem_of_mem_erase isOpen)
    refine ⟨emptied, fun owned => ?_⟩
    rw [emptied.owned_iff]
    intro descriptor isOpen
    obtain ⟨different, isOpen⟩ := Finset.mem_erase.mp isOpen
    rcases closedTracked.owned_iff.mp (closedOwned owned) descriptor isOpen
      with server | client
    · exact absurd server different
    · exact Or.inr client
  · rw [if_neg isHeld, recordAll_nil] at rest
    have noServer : socket.serverSock = invalidSocket := not_not.mp isHeld
    rw [← rest]
    exact ⟨closedTracked.of_descriptors_eq noServer.symm rfl, fun owned =>
      (closedOwned owned).of_descriptors_eq noServer.symm rfl⟩

/-- Only an accept over a client descriptor is at fault. -/
def AcceptsIntoFreeSlot (socket : LinuxSocket) : Operation → Prop
  | .listenForClient _ => socket.ClientSlotFree
  | .readBlock _ _ _ => True
  | .readLine _ _ _ _ => True
  | .sendData _ _ => True
  | .resetConnection _ => True
  | .closeConnection => True

/-- Every operation keeps track of its descriptors, and loses none unless it is
an accept over a client descriptor. -/
theorem Tracked.perform
    {socket next : LinuxSocket}
    {ledger nextLedger : Ledger}
    {operation : Operation}
    {calls : List SysCall}
    (tracked : socket.Tracked ledger)
    (performed : socket.perform operation = some (next, calls))
    (recorded : ledger.recordAll calls = some nextLedger) :
    next.Tracked nextLedger ∧
      (socket.Owned ledger →
        (next.Owned nextLedger ↔ socket.AcceptsIntoFreeSlot operation)) := by
  have kept
      (result : next.Tracked nextLedger ∧
        (socket.Owned ledger → next.Owned nextLedger)) :
      next.Tracked nextLedger ∧
        (socket.Owned ledger → (next.Owned nextLedger ↔ True)) :=
    ⟨result.1, fun owned => iff_true_intro (result.2 owned)⟩
  cases operation with
  | listenForClient accepted =>
      cases performed
      exact tracked.listenForClient recorded
  | readBlock rcvBuffer limit outcome =>
      simp only [LinuxSocket.perform, readBlock_socket] at performed
      cases performed
      rw [recordAll_nil] at recorded
      exact kept (recorded ▸ ⟨tracked, fun owned => owned⟩)
  | readLine bufferLength timeout_us stopOnDisconnect outcomes =>
      simp only [LinuxSocket.perform, Option.map_eq_some_iff] at performed
      obtain ⟨read, finished, equality⟩ := performed
      obtain ⟨connectionState, same⟩ := readLineLoop_socket finished
      cases equality
      rw [recordAll_nil] at recorded
      rw [same, ← recorded]
      exact ⟨tracked.of_descriptors_eq rfl rfl, fun owned =>
        iff_true_intro (owned.of_descriptors_eq rfl rfl)⟩
  | sendData data taken =>
      have sameLedger : ledger = nextLedger ∧ socket = next := by
        simp only [LinuxSocket.perform, LinuxSocket.sendData] at performed
        split at performed
        · cases performed
          exact ⟨recordAll_nil.mp recorded, rfl⟩
        · split at performed <;> cases performed
          · exact ⟨recordAll_nil.mp recorded, rfl⟩
          · exact ⟨Option.some.inj recorded, rfl⟩
      obtain ⟨rfl, rfl⟩ := sameLedger
      exact kept ⟨tracked, fun owned => owned⟩
  | resetConnection outcome =>
      cases performed
      exact kept (tracked.resetConnection recorded)
  | closeConnection =>
      cases performed
      exact kept (tracked.closeConnection recorded)

/-- The listening socket of a constructed object is its only descriptor. -/
theorem tracked_server
    {descriptor : Int}
    (nonnegative : 0 ≤ descriptor) :
    ({ new with serverSock := descriptor } : LinuxSocket).Tracked
        { opened := {descriptor}, strayCloses := [] } ∧
      ({ new with serverSock := descriptor } : LinuxSocket).Owned
        { opened := {descriptor}, strayCloses := [] } := by
  have tracked :
      ({ new with serverSock := descriptor } : LinuxSocket).Tracked
        { opened := {descriptor}, strayCloses := [] } := by
    refine ⟨by simp, by simp [new], ?_, ?_, rfl⟩
    · exact fun serverHeld => serverHeld
    · intro other isOpen
      rw [Finset.mem_singleton.mp isOpen]
      unfold invalidSocket
      omega
  exact ⟨tracked, tracked.owned_iff.mpr fun other isOpen =>
    Or.inl (Finset.mem_singleton.mp isOpen)⟩

/-- A constructed object holds nothing, and nothing is open. -/
theorem tracked_new : new.Tracked Ledger.empty ∧ new.Owned Ledger.empty := by
  have tracked : new.Tracked Ledger.empty := by
    refine ⟨?_, ?_, ?_, ?_, rfl⟩ <;> simp [new, Ledger.empty]
  exact ⟨tracked, tracked.owned_iff.mpr (by simp [Ledger.empty])⟩

/-- `init` of a constructed object keeps track of its descriptors, and loses
none. -/
theorem tracked_init
    {mode : ConnectionMode}
    {port : Int}
    {outcome : InitOutcome}
    {ledger : Ledger}
    (recorded :
      Ledger.empty.recordAll (new.init mode port outcome).calls =
        some ledger) :
    (new.init mode port outcome).socket.Tracked ledger ∧
      (new.init mode port outcome).socket.Owned ledger := by
  cases mode with
  | client =>
      simp only [init] at recorded ⊢
      have configured :
          ({ new with connectionMode := .client, port := port } :
            LinuxSocket).Tracked Ledger.empty :=
        tracked_new.1.of_descriptors_eq rfl rfl
      have kept := configured.reconnect recorded
      exact ⟨kept.1.of_descriptors_eq rfl rfl,
        (kept.2 (tracked_new.2.of_descriptors_eq rfl rfl)).of_descriptors_eq
          rfl rfl⟩
  | server =>
      unfold init at recorded ⊢
      by_cases noSocket : outcome.socket = invalidSocket
      · simp only [if_pos noSocket, recordAll_nil] at recorded ⊢
        rw [← recorded]
        exact ⟨tracked_new.1.of_descriptors_eq noSocket rfl,
          tracked_new.2.of_descriptors_eq noSocket rfl⟩
      · simp only [if_neg noSocket] at recorded ⊢
        by_cases bindFailed : outcome.bind = false
        · simp only [if_pos bindFailed] at recorded ⊢
          obtain ⟨⟨nonnegative, _⟩, rest⟩ := recordAll_socket.mp recorded
          rw [← recordAll_nil.mp rest]
          have kept := tracked_server nonnegative
          exact ⟨kept.1.of_descriptors_eq rfl rfl,
            kept.2.of_descriptors_eq rfl rfl⟩
        · simp only [if_neg bindFailed] at recorded ⊢
          by_cases listenFailed : outcome.listen = false
          · simp only [if_pos listenFailed] at recorded ⊢
            obtain ⟨⟨_, fresh⟩, rest⟩ := recordAll_socket.mp recorded
            rw [recordAll_close (Finset.mem_insert_self _ _), recordAll_nil,
              Finset.erase_insert fresh] at rest
            rw [← rest]
            exact ⟨tracked_new.1.of_descriptors_eq rfl rfl,
              tracked_new.2.of_descriptors_eq rfl rfl⟩
          · simp only [if_neg listenFailed] at recorded ⊢
            obtain ⟨⟨nonnegative, _⟩, rest⟩ := recordAll_socket.mp recorded
            rw [← recordAll_nil.mp rest]
            have kept := tracked_server nonnegative
            exact ⟨kept.1.of_descriptors_eq rfl rfl,
              kept.2.of_descriptors_eq rfl rfl⟩

end LinuxSocket

/-! ## Runs of the socket class -/

/-- A socket object in use, with the ledger of the system calls it made. -/
structure Holding where
  socket : LinuxSocket
  ledger : Ledger

namespace Holding

/-- The object after its `init`. -/
def afterInit
    (mode : ConnectionMode)
    (port : Int)
    (outcome : InitOutcome) : Option Holding :=
  let result := LinuxSocket.new.init mode port outcome
  (Ledger.empty.recordAll result.calls).map fun ledger =>
    { socket := result.socket, ledger := ledger }

/-- Perform one operation. -/
def step (holding : Holding) (operation : LinuxSocket.Operation) :
    Option Holding :=
  (holding.socket.perform operation).bind fun (socket, calls) =>
    (holding.ledger.recordAll calls).map fun ledger =>
      { socket := socket, ledger := ledger }

/-- The object keeps track of its descriptors. -/
def Tracked (holding : Holding) : Prop :=
  holding.socket.Tracked holding.ledger

/-- The object holds exactly the open descriptors. -/
def Owned (holding : Holding) : Prop :=
  holding.socket.Owned holding.ledger

/-- After `init` nothing is lost. -/
theorem owned_afterInit
    {mode : ConnectionMode}
    {port : Int}
    {outcome : InitOutcome}
    {holding : Holding}
    (initialised : afterInit mode port outcome = some holding) :
    holding.Tracked ∧ holding.Owned := by
  unfold afterInit at initialised
  obtain ⟨ledger, recorded, rfl⟩ := Option.map_eq_some_iff.mp initialised
  exact LinuxSocket.tracked_init recorded

/-- One operation keeps track of the descriptors, and loses none exactly if it
is no accept over a client descriptor. -/
theorem Tracked.step
    {holding next : Holding}
    {operation : LinuxSocket.Operation}
    (tracked : holding.Tracked)
    (stepped : holding.step operation = some next) :
    next.Tracked ∧
      (holding.Owned →
        (next.Owned ↔ holding.socket.AcceptsIntoFreeSlot operation)) := by
  unfold Holding.step at stepped
  obtain ⟨⟨socket, calls⟩, performed, rest⟩ := Option.bind_eq_some_iff.mp stepped
  obtain ⟨ledger, recorded, rfl⟩ := Option.map_eq_some_iff.mp rest
  exact LinuxSocket.Tracked.perform tracked performed recorded

/-- A run of operations owns its descriptors throughout exactly if every accept
in it is made into a free slot. -/
theorem along_owned_iff
    {holding final : Holding}
    {operations : List LinuxSocket.Operation}
    (tracked : holding.Tracked)
    (owned : holding.Owned)
    (performed :
      TransitionSystem.run step holding operations = some final) :
    TransitionSystem.Along step Owned holding operations ↔
      TransitionSystem.Guarded step
        (fun holding operation =>
          holding.socket.AcceptsIntoFreeSlot operation)
        holding operations := by
  refine TransitionSystem.along_iff_guarded ?_ ?_ tracked owned performed
  · exact fun _ _ _ holds stepped => (Tracked.step holds stepped).1
  · exact fun _ _ _ holds owns stepped => (Tracked.step holds stepped).2 owns

end Holding
end ProtobufSandbox
