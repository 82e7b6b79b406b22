import ProtobufSandbox.Transport.Framing

/-!
# Isolation of connections in the framer

A server serves one client after the other with one `m_CmdBuffer`. What an
earlier client left without a newline is still there when the next client is
accepted, so two pasts are told apart by the commands of the current client
unless they left the same residue or the client never ends a command.
-/

namespace ProtobufSandbox

open Separator

/-! ## The listening side is fixed -/

/-- A socket that listens: it is in server mode and has a listening
descriptor. -/
structure LinuxSocket.Listening (socket : LinuxSocket) : Prop where
  mode : socket.connectionMode = .server
  valid : socket.serverSock ≠ invalidSocket

namespace LinuxSocket

/-- A successful `init` in server mode sets up the port. -/
theorem init_server
    {port : Int}
    {outcome : InitOutcome}
    (initialised : (new.init .server port outcome).returns = true) :
    (new.init .server port outcome).socket.Listening ∧
      (new.init .server port outcome).socket.connectionState =
        .serverPortSetup := by
  unfold init at initialised ⊢
  by_cases noSocket : outcome.socket = invalidSocket
  · simp [noSocket] at initialised
  · by_cases bindFailed : outcome.bind = false
    · simp [noSocket, bindFailed] at initialised
    · by_cases listenFailed : outcome.listen = false
      · simp [noSocket, bindFailed, listenFailed] at initialised
      · simp only [if_neg noSocket, if_neg bindFailed, if_neg listenFailed]
        exact ⟨⟨rfl, noSocket⟩, trivial⟩

/-- Listening does not depend on the state of the connection. -/
theorem Listening.withState
    {socket : LinuxSocket}
    (listening : socket.Listening)
    (connectionState : ConnectionState) :
    ({ socket with connectionState := connectionState } :
      LinuxSocket).Listening :=
  ⟨listening.mode, listening.valid⟩

/-- A socket that listens still listens after a reset. -/
theorem Listening.resetConnection
    {socket : LinuxSocket}
    (listening : socket.Listening)
    (outcome : ReconnectOutcome) :
    (socket.resetConnection outcome).socket.Listening := by
  unfold LinuxSocket.resetConnection
  rw [listening.mode]
  dsimp only
  split
  · exact listening
  · exact ⟨rfl, listening.valid⟩

/-- A socket that listens still listens after an accept. -/
theorem Listening.listenForClient
    {socket : LinuxSocket}
    (listening : socket.Listening)
    (accepted : Int) :
    (socket.listenForClient accepted).socket.Listening := by
  unfold LinuxSocket.listenForClient
  rw [if_pos ⟨listening.mode, listening.valid⟩]
  split
  · exact ⟨listening.mode, listening.valid⟩
  · exact ⟨listening.mode, listening.valid⟩

end LinuxSocket

namespace SocketTransport

/-- A transport whose socket listens still listens after a poll. -/
theorem listening_updateRx
    {transport : SocketTransport}
    {outcome : RxOutcome}
    {result : RxResult}
    (listening : transport.socket.Listening)
    (updated : transport.updateRx outcome = some result) :
    result.transport.socket.Listening := by
  have stepped := socketStep_of_updateRx updated
  generalize result.transport.socket = socket at stepped ⊢
  generalize result.calls = calls at stepped
  cases stepped with
  | accept between => exact listening.listenForClient _
  | goOn connectionState elsewhere => exact listening.withState connectionState
  | reset connectionState elsewhere =>
      exact (listening.withState connectionState).resetConnection _

end SocketTransport

namespace Reception

/-- The receive loop of a server keeps listening. -/
theorem listening_receive
    {reception final : Reception}
    {outcomes : List RxOutcome}
    (framed : Framed pending count reception)
    (listening : reception.transport.socket.Listening)
    (performed : TransitionSystem.run step reception outcomes = some final) :
    final.transport.socket.Listening := by
  have preserved (reception : Reception) (outcome : RxOutcome)
      (next : Reception)
      (holds : Framed pending count reception ∧
        reception.transport.socket.Listening)
      (stepped : reception.step outcome = some next) :
      Framed pending count next ∧ next.transport.socket.Listening := by
    refine ⟨holds.1.step stepped, ?_⟩
    obtain ⟨result, updated, rfl⟩ := Option.map_eq_some_iff.mp stepped
    exact SocketTransport.listening_updateRx holds.2 updated
  exact (TransitionSystem.run_preserves preserved ⟨framed, listening⟩
    performed).2

/-- The commands of a client are the terminated segments of its text behind
whatever earlier clients left unterminated. -/
theorem commands_of_client
    {earlier : Reception}
    {accepting : RxOutcome}
    {polls : List RxOutcome}
    (framer : earlier.transport.Framer)
    (listening : earlier.transport.socket.Listening)
    (between :
      earlier.transport.socket.connectionState = .serverPortSetup)
    (accepts : accepting.accept ≠ invalidSocket)
    (remains : ∀ outcome ∈ polls, outcome.recv.Open) :
    ∃ current,
      receive earlier.transport (accepting :: polls) = some current ∧
        current.delivered.map Invocation.command =
          terminated newline (earlier.transport.cmdBuffer ++ textOf polls) := by
  obtain ⟨current, performed, framed⟩ :=
    receive_framed framer (accepting :: polls)
  refine ⟨current, performed, ?_⟩
  rw [framed.delivered, map_command_numbered]
  congr 2
  obtain ⟨next, stepped, rest⟩ :=
    TransitionSystem.run_cons_eq_some.mp performed
  have nextFramed := (framed_start framer).step stepped
  obtain ⟨result, updated, rfl⟩ := Option.map_eq_some_iff.mp stepped
  have heard : earlier.transport.heard accepting = [] := by
    unfold SocketTransport.heard
    simp [between]
  have online : result.transport.Online := by
    unfold SocketTransport.updateRx at updated
    simp only [between, Option.some.injEq] at updated
    subst updated
    unfold LinuxSocket.listenForClient
    rw [if_pos ⟨listening.mode, listening.valid⟩, if_pos accepts]
    exact ⟨rfl, accepts⟩
  rw [(received_of_open nextFramed online remains rest).2, heard]
  rfl

/-- A server that served some clients and is between two connections. -/
structure BetweenClients (socket : LinuxSocket) (earlier : Reception) : Prop where
  performed : ∃ outcomes, receive (.new socket) outcomes = some earlier
  between : earlier.transport.socket.connectionState = .serverPortSetup

/-- Between two connections the framer is ready, the server listens, and
`m_CmdBuffer` is the residue of everything received so far. -/
theorem BetweenClients.state
    {socket : LinuxSocket}
    {earlier : Reception}
    (listening : socket.Listening)
    (state : BetweenClients socket earlier) :
    earlier.transport.Framer ∧ earlier.transport.socket.Listening ∧
      earlier.transport.cmdBuffer = residue newline earlier.received := by
  obtain ⟨outcomes, performed⟩ := state.performed
  have framer := SocketTransport.framer_new socket
  obtain ⟨other, same, framed⟩ := receive_framed framer outcomes
  obtain rfl : earlier = other := Option.some.inj (performed.symm.trans same)
  exact ⟨framed.framer,
    listening_receive (framed_start framer) listening performed,
    framed.cmdBuffer⟩

/-- Two pasts of a server make no difference to the commands of the client
accepted now exactly if they left the same text unterminated, or the client
ends no command. -/
theorem commands_eq_iff_residue_eq
    {port : Int}
    {outcome : InitOutcome}
    {first second : Reception}
    {accepting : RxOutcome}
    {polls : List RxOutcome}
    (initialised :
      (LinuxSocket.new.init .server port outcome).returns = true)
    (firstPast :
      BetweenClients (LinuxSocket.new.init .server port outcome).socket first)
    (secondPast :
      BetweenClients (LinuxSocket.new.init .server port outcome).socket second)
    (accepts : accepting.accept ≠ invalidSocket)
    (remains : ∀ outcome ∈ polls, outcome.recv.Open) :
    ∃ firstNow secondNow,
      receive first.transport (accepting :: polls) = some firstNow ∧
        receive second.transport (accepting :: polls) = some secondNow ∧
        (firstNow.delivered.map Invocation.command =
            secondNow.delivered.map Invocation.command ↔
          residue newline first.received = residue newline second.received ∨
            newline ∉ textOf polls) := by
  have listening := (LinuxSocket.init_server initialised).1
  obtain ⟨firstFramer, firstListening, firstBuffer⟩ :=
    firstPast.state listening
  obtain ⟨secondFramer, secondListening, secondBuffer⟩ :=
    secondPast.state listening
  obtain ⟨firstNow, firstPerformed, firstCommands⟩ :=
    commands_of_client firstFramer firstListening firstPast.between accepts
      remains
  obtain ⟨secondNow, secondPerformed, secondCommands⟩ :=
    commands_of_client secondFramer secondListening secondPast.between accepts
      remains
  refine ⟨firstNow, secondNow, firstPerformed, secondPerformed, ?_⟩
  rw [firstCommands, secondCommands, firstBuffer, secondBuffer]
  exact terminated_append_inj (not_mem_residue _ _) (not_mem_residue _ _) _

/-- A server socket after a successful `init`. -/
def listeningSocket : LinuxSocket :=
  (LinuxSocket.new.init .server 12070 (.listening 3)).socket

/-- A client that sends one byte and leaves. -/
def oneByteClient (byte : UInt8) : List RxOutcome :=
  [polled 5 .wouldBlock,
    polled (-1) (.data ⟨[byte], by simp, by simp [readBlockSize]⟩),
    polled (-1) .closed]

/-- A client that sends the command `a`. -/
def commandClient : List RxOutcome :=
  [polled 6 .wouldBlock,
    polled (-1) (.data ⟨ascii ['a', '\n'], by decide, by decide⟩)]

/-- After a client that left the byte `x`, the command `a` of the next client is
delivered as `xa`; after one that left a newline, it is delivered as `a`. -/
theorem unterminated_text_reaches_next_client :
    ∃ first second firstNow secondNow,
      receive (.new listeningSocket) (oneByteClient 0x78) = some first ∧
        receive (.new listeningSocket) (oneByteClient newline) = some second ∧
        receive first.transport commandClient = some firstNow ∧
        receive second.transport commandClient = some secondNow ∧
        firstNow.delivered.map Invocation.command = [ascii ['x', 'a']] ∧
        secondNow.delivered.map Invocation.command = [ascii ['a']] :=
  ⟨_, _, _, _, rfl, rfl, rfl, rfl, by decide, by decide⟩

/-- Two pasts that both ended their last command make no difference. -/
theorem commands_eq_iff_residue_eq_ended :
    ∃ first second firstNow secondNow,
      receive (.new listeningSocket) (oneByteClient newline) = some first ∧
        receive (.new listeningSocket) [] = some second ∧
        receive first.transport commandClient = some firstNow ∧
        receive second.transport commandClient = some secondNow ∧
        firstNow.delivered.map Invocation.command =
          secondNow.delivered.map Invocation.command := by
  have pasts :=
    @commands_eq_iff_residue_eq 12070 (.listening 3) _ _ (polled 6 .wouldBlock)
      [polled (-1) (.data ⟨ascii ['a', '\n'], by decide, by decide⟩)]
      rfl ⟨⟨oneByteClient newline, rfl⟩, rfl⟩ ⟨⟨[], rfl⟩, rfl⟩ (by decide)
      (by simp [polled, RecvOutcome.Open])
  obtain ⟨firstNow, secondNow, firstPerformed, secondPerformed, iff⟩ := pasts
  exact ⟨_, _, firstNow, secondNow, rfl, rfl, firstPerformed, secondPerformed,
    iff.mpr (Or.inl (by decide))⟩

end Reception
end ProtobufSandbox
