import Mathlib.Algebra.Order.Ring.Nat
import ProtobufSandbox.Processor.CommandProcessor
import ProtobufSandbox.Protocol.WireFormat
import ProtobufSandbox.Transport.Framing

/-!
# The request leg

The client writes the wire encodings of its commands one after the other, with
nothing between them; the server cuts what it receives at newlines. Each command
the server pushes costs the stream one newline more than the encoding of the
command holds, so the server never pushes what the client sent.
-/

namespace ProtobufSandbox

open Separator

/-! ## The client -/

/-- `sendCommand` of the client; `taken` is the answer of `send`. -/
def sendCommand
    (socket : LinuxSocket)
    (newCmd : Command)
    (taken : Option Nat) : SocketResult :=
  socket.sendData newCmd.serializeToString taken

/-- The system calls of sending commands in order, where every `send` takes all
its bytes. -/
def sendCommands (socket : LinuxSocket) : List Command → List SysCall
  | [] => []
  | newCmd :: rest =>
      let sent :=
        sendCommand socket newCmd (some newCmd.serializeToString.length)
      sent.calls ++ sendCommands sent.socket rest

/-- The bytes that system calls put on the connection. -/
def transmitted (calls : List SysCall) : Bytes :=
  calls.flatMap fun
    | .send _ data (some taken) => data.take taken
    | .send _ _ none | .socket _ | .accept _ | .close _ => []

/-- The system calls of sending messages in order. -/
def sendMessages (socket : LinuxSocket) : List Bytes → List SysCall
  | [] => []
  | message :: rest =>
      let sent := socket.sendData message (some message.length)
      sent.calls ++ sendMessages sent.socket rest

/-- What is put on the connection is the messages, with nothing between them. -/
theorem transmitted_sendMessages
    {socket : LinuxSocket}
    (valid : socket.clientSock ≠ invalidSocket)
    (messages : List Bytes) :
    transmitted (sendMessages socket messages) = messages.flatten := by
  induction messages with
  | nil => rfl
  | cons message rest inductionHypothesis =>
      unfold sendMessages LinuxSocket.sendData
      by_cases empty : message.length = 0
      · simp only [List.nil_append, List.flatten_cons,
          List.length_eq_zero_iff.mp empty]
        exact inductionHypothesis
      · simp only [if_neg empty, if_neg valid, List.flatten_cons]
        rw [transmitted, List.flatMap_append]
        exact congrArg₂ _ (by simp) inductionHypothesis

/-- The messages of the client are the encodings of its commands. -/
theorem sendCommands_eq
    (socket : LinuxSocket)
    (commands : List Command) :
    sendCommands socket commands =
      sendMessages socket (commands.map Command.serializeToString) := by
  induction commands generalizing socket with
  | nil => rfl
  | cons newCmd rest inductionHypothesis =>
      exact congrArg (_ ++ ·) (inductionHypothesis _)

/-- The stream is the sequence of encodings. -/
theorem transmitted_sendCommands
    {socket : LinuxSocket}
    (valid : socket.clientSock ≠ invalidSocket)
    (commands : List Command) :
    transmitted (sendCommands socket commands) =
      commands.flatMap Command.serializeToString := by
  rw [sendCommands_eq, transmitted_sendMessages valid, List.flatMap]

/-! ## Weighing bytes -/

/-- The number of bytes from 1 to 127: those that end a varint in a text without
zero bytes. -/
def weight (bytes : Bytes) : Nat :=
  bytes.countP fun byte => byte ≠ 0 && byte < 128

@[simp] theorem weight_nil : weight [] = 0 := rfl

@[simp] theorem weight_append (first second : Bytes) :
    weight (first ++ second) = weight first + weight second :=
  List.countP_append

theorem weight_cons (byte : UInt8) (bytes : Bytes) :
    weight (byte :: bytes) = weight [byte] + weight bytes :=
  weight_append [byte] bytes

/-- The bytes of a varint weigh at most one. -/
theorem weight_varint_le
    {bytes : Bytes}
    (varint : Varint.IsVarint bytes) :
    weight bytes ≤ 1 := by
  rw [← Varint.countP_lt_128 varint]
  refine List.countP_mono_left fun byte _ light => ?_
  simp only [Bool.and_eq_true] at light
  exact light.2

/-- Without zero bytes they weigh one. -/
theorem weight_varint
    {bytes : Bytes}
    (varint : Varint.IsVarint bytes)
    (nonzero : (0 : UInt8) ∉ bytes) :
    weight bytes = 1 := by
  rw [← Varint.countP_lt_128 varint]
  refine List.countP_congr fun byte present => ?_
  have byteNonzero : byte ≠ 0 := fun equal => nonzero (equal ▸ present)
  simp [byteNonzero]

/-- The least weight of a text without zero bytes from which a command with this
method is read. -/
def leastWeight (text : Bytes) : Nat :=
  if text = [] then 3 else 4 + weight text

/-- The encoding of a command is no heavier than that. -/
theorem weight_serializeToString_le (value : Int32) (text : Bytes) :
    weight (Command.of value text).serializeToString ≤ leastWeight text := by
  have id : weight (int32Varint value) ≤ 1 :=
    weight_varint_le (Varint.isVarint_encode _)
  have length : weight (Varint.encode text.length) ≤ 1 :=
    weight_varint_le (Varint.isVarint_encode _)
  have idTag : weight [0x08] = 1 := by decide
  have methodTag : weight [0x12] = 1 := by decide
  rw [Command.serializeToString_of, List.cons_append, weight_cons, weight_append,
    weight_cons 0x12]
  unfold delimited leastWeight
  rw [weight_append]
  split
  · next empty =>
      subst empty
      have zero : weight (Varint.encode ([] : Bytes).length) = 0 := by decide
      simp only [weight_nil]
      omega
  · omega

/-- A text without zero bytes from which a command is read is at least that
heavy. -/
theorem leastWeight_le_weight
    {parseFromString : Bytes → Command}
    (parser : ReadsWireFormat parseFromString)
    {input text : Bytes}
    {value : Int32}
    (nonzero : (0 : UInt8) ∉ input)
    (parsed : parseFromString input = .of value text) :
    leastWeight text ≤ weight input := by
  obtain ⟨before, between, after, idRecord, methodRecord,
    ⟨idTag, idValue, idTagVarint, idValueVarint, rfl⟩,
    ⟨methodTag, methodTagVarint, method⟩, placed⟩ :=
      parser.records input value text parsed
  have total : weight input =
      weight before + weight between + weight after +
        weight idTag + weight idValue + weight methodRecord := by
    rcases placed with rfl | rfl <;> simp only [weight_append] <;> omega
  have absent :
      (0 : UInt8) ∉ idTag ∧ (0 : UInt8) ∉ idValue ∧
        (0 : UInt8) ∉ methodRecord := by
    rcases placed with rfl | rfl <;> simp_all
  have idTagWeight := weight_varint idTagVarint absent.1
  have idValueWeight := weight_varint idValueVarint absent.2.1
  have methodRecordAbsent := absent.2.2
  unfold leastWeight
  rcases method with ⟨rfl, rfl⟩ | ⟨length, lengthVarint, rfl⟩
  · have methodTagWeight := weight_varint methodTagVarint methodRecordAbsent
    rw [if_pos rfl]
    omega
  · simp only [List.mem_append, not_or] at methodRecordAbsent
    have methodTagWeight :=
      weight_varint methodTagVarint methodRecordAbsent.1.1
    have lengthWeight := weight_varint lengthVarint methodRecordAbsent.1.2
    simp only [weight_append] at total
    split <;> omega

/-- Terminated segments weigh one less each than the text they end in. -/
theorem weight_terminated_le (text : Bytes) :
    ((terminated newline text).map weight).sum +
      (terminated newline text).length ≤ weight text := by
  induction text using Separator.induction newline with
  | open_segment text absent => simp [of_not_mem absent]
  | ended_segment segment rest absent inductionHypothesis =>
      have newlineWeight : weight [newline] = 1 := by decide
      rw [(of_append_cons absent rest).1, weight_append, weight_cons]
      simp only [List.map_cons, List.sum_cons, List.length_cons]
      omega

/-- The text heard is part of the stream. -/
theorem weight_textOf_le (outcomes : List RxOutcome) :
    weight (textOf outcomes) ≤ weight (streamOf outcomes) := by
  unfold textOf streamOf
  induction outcomes with
  | nil => exact Nat.le_refl _
  | cons outcome outcomes inductionHypothesis =>
      have prefixed :
          weight (cString outcome.recv.bytes) ≤ weight outcome.recv.bytes :=
        (List.takeWhile_sublist _).countP_le
      simp only [List.flatMap_cons, weight_append]
      omega

/-- Segments of a text hold only bytes of the text. -/
theorem not_mem_terminated
    {byte : UInt8}
    {text segment : Bytes}
    (absent : byte ∉ text)
    (present : segment ∈ terminated newline text) :
    byte ∉ segment := by
  intro inside
  refine absent ?_
  rw [← flatten_terminated_append_residue newline text, List.mem_append]
  exact Or.inl (List.mem_flatten.mpr ⟨segment ++ [newline],
    List.mem_map_of_mem present, List.mem_append_left _ inside⟩)

/-- Commands read from segments without zero bytes encode to no more weight than
the segments have. -/
theorem weight_encodings_le
    {parseFromString : Bytes → Command}
    (parser : ReadsWireFormat parseFromString)
    {segments : List Bytes}
    {fields : List (Int32 × Bytes)}
    (nonzero : ∀ segment ∈ segments, (0 : UInt8) ∉ segment)
    (parsed :
      segments.map parseFromString =
        fields.map fun field => Command.of field.1 field.2) :
    weight ((fields.map fun field => Command.of field.1 field.2).flatMap
        Command.serializeToString) ≤
      (segments.map weight).sum := by
  induction segments generalizing fields with
  | nil =>
      cases fields with
      | nil => exact Nat.le_refl _
      | cons field fields => cases parsed
  | cons segment segments inductionHypothesis =>
      cases fields with
      | nil => cases parsed
      | cons field fields =>
          simp only [List.map_cons, List.cons.injEq] at parsed
          have rest :=
            inductionHypothesis
              (fun other present => nonzero other (List.mem_cons_of_mem _ present))
              parsed.2
          have first :=
            leastWeight_le_weight parser (nonzero segment List.mem_cons_self)
              parsed.1
          have encoded := weight_serializeToString_le field.1 field.2
          simp only [List.map_cons, List.flatMap_cons, List.sum_cons,
            weight_append]
          omega

/-! ## End to end -/

/-- The queue after the receive callback was called for each command. -/
def pushed
    (parseFromString : Bytes → Command)
    (delivered : List Invocation) : List Command :=
  (delivered.foldl
    (fun processor invocation =>
      processor.recvCBRoutine parseFromString invocation.command)
    (CommandProcessor.new true)).cmdFIFO

/-- The callback pushes what it parses, in order. -/
theorem pushed_eq
    (parseFromString : Bytes → Command)
    (delivered : List Invocation) :
    pushed parseFromString delivered =
      (delivered.map Invocation.command).map parseFromString := by
  have queued (processor : CommandProcessor) :
      (delivered.foldl
        (fun processor invocation =>
          processor.recvCBRoutine parseFromString invocation.command)
        processor).cmdFIFO =
          processor.cmdFIFO ++
            (delivered.map Invocation.command).map parseFromString := by
    induction delivered generalizing processor with
    | nil => simp
    | cons invocation delivered inductionHypothesis =>
        rw [List.foldl_cons, inductionHypothesis]
        simp [CommandProcessor.recvCBRoutine, CommandProcessor.pushBack]
  exact queued _

/-- The server pushes what the client sent exactly if the client sent nothing,
whatever pieces the stream arrives in. -/
theorem pushed_eq_sent_iff_nothing_sent
    {parseFromString : Bytes → Command}
    {clientSocket serverSocket : LinuxSocket}
    {fields : List (Int32 × Bytes)}
    {outcomes : List RxOutcome}
    (parser : ReadsWireFormat parseFromString)
    (clientValid : clientSocket.clientSock ≠ invalidSocket)
    (connected : serverSocket.connectionState = .connected)
    (serverValid : serverSocket.clientSock ≠ invalidSocket)
    (remains : ∀ outcome ∈ outcomes, outcome.recv.Open)
    (whole :
      streamOf outcomes =
        transmitted (sendCommands clientSocket
          (fields.map fun field => Command.of field.1 field.2))) :
    ∃ reception,
      Reception.receive (.new serverSocket) outcomes = some reception ∧
        (pushed parseFromString reception.delivered =
            (fields.map fun field => Command.of field.1 field.2) ↔
          fields = []) := by
  have framer := SocketTransport.framer_new serverSocket
  obtain ⟨reception, performed, framed⟩ :=
    Reception.receive_framed framer outcomes
  have heard :=
    (Reception.received_of_open (Reception.framed_start framer)
      ⟨connected, serverValid⟩ remains performed).2
  rw [List.nil_append] at heard
  have delivered :
      reception.delivered.map Invocation.command =
        terminated newline (textOf outcomes) := by
    rw [framed.delivered, map_command_numbered, heard]
    rfl
  refine ⟨reception, performed, ?_⟩
  rw [pushed_eq, delivered]
  rw [transmitted_sendCommands clientValid] at whole
  have zeroFree : (0 : UInt8) ∉ textOf outcomes := by
    intro present
    obtain ⟨outcome, _, inside⟩ := List.mem_flatMap.mp present
    exact zero_not_mem_cString _ inside
  constructor
  · intro parsed
    have lighter :=
      weight_encodings_le parser
        (fun segment present => not_mem_terminated zeroFree present) parsed
    have segments := weight_terminated_le (textOf outcomes)
    have text := weight_textOf_le outcomes
    have counted := congrArg List.length parsed
    simp only [List.length_map] at counted
    rw [whole] at text
    refine List.length_eq_zero_iff.mp ?_
    omega
  · rintro rfl
    have nothing : streamOf outcomes = [] := whole
    have silent : textOf outcomes = [] := by
      rw [textOf_eq_streamOf (by simp [nothing]), nothing]
    rw [silent]
    rfl

/-- A client socket after a successful connect. -/
def connectedSocket : LinuxSocket where
  port := 12070
  connectionMode := .client
  connectionState := .connected
  serverSock := invalidSocket
  clientSock := 4

/-- The stream of one status command, in one piece. -/
def oneStatus : List RxOutcome :=
  [polled (-1)
    (.data
      ⟨(Command.of 1 (ascii ['s', 't', 'a', 't', 'u', 's'])).serializeToString,
        by decide, by decide⟩)]

/-- The status command of the client holds no newline, and is never pushed. -/
theorem status_command_is_not_pushed :
    streamOf oneStatus =
        transmitted (sendCommands connectedSocket
          [.of 1 (ascii ['s', 't', 'a', 't', 'u', 's'])]) ∧
      ∃ reception,
        Reception.receive (.new Reception.acceptedSocket) oneStatus =
            some reception ∧
          ∀ parseFromString,
            pushed parseFromString reception.delivered ≠
              [.of 1 (ascii ['s', 't', 'a', 't', 'u', 's'])] := by
  refine ⟨by decide, _, rfl, fun parseFromString => ?_⟩
  have nothing : pushed parseFromString _ = [] :=
    pushed_eq parseFromString []
  exact fun same => absurd (nothing.symm.trans same) (List.cons_ne_nil _ _).symm

/-- The stream of a command whose method has ten bytes, in two pieces; its
length is the byte of a newline. -/
def tenByteMethod : List RxOutcome :=
  [polled (-1)
      (.data ⟨[0x08, 0x01, 0x12, 0x0A, 0x73, 0x74, 0x6F], by decide, by decide⟩),
    polled (-1) .wouldBlock,
    polled (-1)
      (.data ⟨[0x70, 0x73, 0x74, 0x6F, 0x70, 0x20, 0x20], by decide, by decide⟩)]

/-- The piece in front of the newline holds an id and the tag of a method: the server
pushes a command with the id and no method, and not the one that was sent. -/
theorem pushed_eq_sent_iff_nothing_sent_ten_bytes :
    ∃ reception,
      Reception.receive (.new Reception.acceptedSocket) tenByteMethod =
          some reception ∧
        pushed parseFields reception.delivered = [.of 1 []] ∧
        pushed parseFields reception.delivered ≠
          [.of 1 (ascii ['s', 't', 'o', 'p', 's', 't', 'o', 'p', ' ', ' '])] := by
  obtain ⟨reception, performed, exactly⟩ :=
    @pushed_eq_sent_iff_nothing_sent parseFields connectedSocket
      Reception.acceptedSocket
      [(1, ascii ['s', 't', 'o', 'p', 's', 't', 'o', 'p', ' ', ' '])]
      tenByteMethod readsWireFormat_parseFields (by decide) rfl (by decide)
      (by simp [tenByteMethod, polled, RecvOutcome.Open]) (by decide)
  have delivered : (Reception.receive (.new Reception.acceptedSocket) tenByteMethod).map
      (fun reception => pushed parseFields reception.delivered) = some [.of 1 []] := by
    rfl
  rw [performed] at delivered
  exact ⟨reception, performed, Option.some.inj delivered, fun same =>
    absurd (exactly.mp same) (List.cons_ne_nil _ _)⟩

end ProtobufSandbox
