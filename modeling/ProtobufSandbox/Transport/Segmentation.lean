import ProtobufSandbox.Transport.Framing

/-!
# Segmentation of the byte stream

TCP may cut a stream anywhere. `readBlock` hands over a chunk with its length,
but a poll appends the read buffer as a C string, so what a chunk holds behind
its first zero byte is lost, and which bytes these are depends on the cut. All
cuts agree exactly for the streams whose zero bytes stand at the end.
-/

namespace ProtobufSandbox

open Separator

/-! ## Text of a stream -/

/-- The zero bytes of a stream stand behind all its other bytes. -/
def ZerosLast (stream : Bytes) : Prop :=
  ∀ byte ∈ stream.dropWhile (· ≠ 0), byte = 0

instance ZerosLast.decidable (stream : Bytes) : Decidable (ZerosLast stream) :=
  decidable_of_iff ((stream.dropWhile (· ≠ 0)).all (· == 0) = true)
    (by simp only [ZerosLast, List.all_eq_true, beq_iff_eq])

theorem zerosLast_zero_cons
    {rest : Bytes} :
    ZerosLast (0 :: rest) ↔ ∀ byte ∈ rest, byte = 0 := by
  simp [ZerosLast]

theorem zerosLast_cons
    {byte : UInt8}
    {rest : Bytes}
    (nonzero : byte ≠ 0) :
    ZerosLast (byte :: rest) ↔ ZerosLast rest := by
  simp [ZerosLast, nonzero]

/-- Zero bytes alone stand last, and are an empty C string. -/
theorem zerosLast_of_zeros
    {bytes : Bytes}
    (zeros : ∀ byte ∈ bytes, byte = 0) :
    ZerosLast bytes ∧ cString bytes = [] := by
  cases bytes with
  | nil => exact ⟨fun byte present => absurd present List.not_mem_nil, rfl⟩
  | cons byte bytes =>
      obtain rfl : byte = 0 := zeros byte List.mem_cons_self
      refine ⟨zerosLast_zero_cons.mpr fun other present =>
        zeros other (List.mem_cons_of_mem _ present), ?_⟩
      simp [cString]

/-- Where zero bytes stand last, they stand last in every end of the stream,
and the C strings of two pieces make up the C string of the whole. -/
theorem ZerosLast.append
    {first second : Bytes}
    (zerosLast : ZerosLast (first ++ second)) :
    ZerosLast second ∧
      cString (first ++ second) = cString first ++ cString second := by
  induction first with
  | nil => exact ⟨zerosLast, rfl⟩
  | cons byte first inductionHypothesis =>
      rw [List.cons_append] at zerosLast ⊢
      by_cases zero : byte = 0
      · subst zero
        have zeros : ∀ byte ∈ second, byte = 0 := fun byte present =>
          zerosLast_zero_cons.mp zerosLast byte (List.mem_append_right _ present)
        refine ⟨(zerosLast_of_zeros zeros).1, ?_⟩
        rw [(zerosLast_of_zeros zeros).2]
        simp [cString]
      · obtain ⟨last, whole⟩ :=
          inductionHypothesis ((zerosLast_cons zero).mp zerosLast)
        refine ⟨last, ?_⟩
        unfold cString at whole ⊢
        rw [List.takeWhile_cons_of_pos (by simpa using zero), whole,
          List.takeWhile_cons_of_pos (by simpa using zero), List.cons_append]

/-- Where they do not, some zero byte has a nonzero byte right behind it. -/
theorem exists_nonzero_behind_zero
    {stream : Bytes}
    (scattered : ¬ ZerosLast stream) :
    ∃ before byte after,
      stream = before ++ [0, byte] ++ after ∧ byte ≠ 0 := by
  induction stream with
  | nil => exact absurd (zerosLast_of_zeros (by simp)).1 scattered
  | cons head rest inductionHypothesis =>
      by_cases later : ZerosLast rest
      · obtain rfl : head = 0 := by
          by_contra nonzero
          exact scattered ((zerosLast_cons nonzero).mpr later)
        cases rest with
        | nil => exact absurd (zerosLast_of_zeros (by simp)).1 scattered
        | cons byte after =>
            refine ⟨[], byte, after, rfl, fun zero => scattered ?_⟩
            subst zero
            apply zerosLast_zero_cons.mpr
            simpa [zerosLast_zero_cons] using later
      · obtain ⟨before, byte, after, rfl, nonzero⟩ := inductionHypothesis later
        exact ⟨head :: before, byte, after, rfl, nonzero⟩

/-! ## Text of a cut -/

/-- The answers of `recv` cut the stream into chunks, with no end of file and no
error in between. -/
structure CutsInto
    (outcomes : List RxOutcome)
    (stream : Bytes) : Prop where
  remains : ∀ outcome ∈ outcomes, outcome.recv.Open
  stream_eq : streamOf outcomes = stream

/-- Where zero bytes stand last, the text does not depend on the cut. -/
theorem textOf_eq_cString
    {outcomes : List RxOutcome}
    (zerosLast : ZerosLast (streamOf outcomes)) :
    textOf outcomes = cString (streamOf outcomes) := by
  induction outcomes with
  | nil => rfl
  | cons outcome outcomes inductionHypothesis =>
      obtain ⟨last, whole⟩ :=
        @ZerosLast.append outcome.recv.bytes _ zerosLast
      have tail : textOf outcomes = cString (streamOf outcomes) :=
        inductionHypothesis last
      calc textOf (outcome :: outcomes)
          = cString outcome.recv.bytes ++ textOf outcomes := rfl
        _ = cString (outcome.recv.bytes ++ streamOf outcomes) := by
            rw [tail]
            exact whole.symm

/-- One chunk of at most two bytes. -/
def pieceOf
    (bytes : Bytes)
    (nonempty : bytes ≠ [])
    (short : bytes.length ≤ 2) : RxOutcome :=
  polled invalidSocket
    (.data ⟨bytes, nonempty, short.trans (by decide)⟩)

/-- The cut of a stream into single bytes. -/
def bytewise (stream : Bytes) : List RxOutcome :=
  stream.map fun byte =>
    pieceOf [byte] (List.cons_ne_nil _ _) (Nat.le_succ 1)

/-- Single bytes are a cut of their stream, and lose only the zero bytes. -/
theorem cutsInto_bytewise (stream : Bytes) :
    CutsInto (bytewise stream) stream ∧
      textOf (bytewise stream) = stream.filter (· ≠ 0) := by
  induction stream with
  | nil => exact ⟨⟨by simp [bytewise], rfl⟩, rfl⟩
  | cons byte stream inductionHypothesis =>
      obtain ⟨cut, text⟩ := inductionHypothesis
      refine ⟨⟨?_, ?_⟩, ?_⟩
      · intro outcome present
        cases List.mem_cons.mp present with
        | inl first => exact first ▸ trivial
        | inr later => exact cut.remains outcome later
      · exact congrArg (byte :: ·) cut.stream_eq
      · calc textOf (bytewise (byte :: stream))
            = cString [byte] ++ textOf (bytewise stream) := rfl
          _ = (byte :: stream).filter (· ≠ 0) := by
              rw [text]
              by_cases zero : byte = 0 <;> simp [cString, zero]

/-- Cuts of two streams one after the other are a cut of both, with the text of
both. -/
theorem CutsInto.append
    {first second : List RxOutcome}
    {firstStream secondStream : Bytes}
    (firstCut : CutsInto first firstStream)
    (secondCut : CutsInto second secondStream) :
    CutsInto (first ++ second) (firstStream ++ secondStream) ∧
      textOf (first ++ second) = textOf first ++ textOf second := by
  refine ⟨⟨?_, ?_⟩, List.flatMap_append⟩
  · intro outcome present
    cases List.mem_append.mp present with
    | inl early => exact firstCut.remains outcome early
    | inr late => exact secondCut.remains outcome late
  · rw [← firstCut.stream_eq, ← secondCut.stream_eq]
    exact List.flatMap_append

/-- A chunk that holds a byte behind a zero byte is no text. -/
theorem cutsInto_behind_zero (byte : UInt8) :
    CutsInto [pieceOf [0, byte] (List.cons_ne_nil _ _) (Nat.le_refl 2)]
        [0, byte] ∧
      textOf [pieceOf [0, byte] (List.cons_ne_nil _ _) (Nat.le_refl 2)] = [] := by
  refine ⟨⟨?_, rfl⟩, rfl⟩
  intro outcome present
  exact List.mem_singleton.mp present ▸ trivial

/-- All cuts of a stream have the same text exactly when its zero bytes stand
last. -/
theorem textOf_eq_of_cutsInto_iff (stream : Bytes) :
    (∀ first second, CutsInto first stream → CutsInto second stream →
      textOf first = textOf second) ↔ ZerosLast stream := by
  constructor
  · intro same
    by_contra scattered
    obtain ⟨before, byte, after, rfl, nonzero⟩ :=
      exists_nonzero_behind_zero scattered
    obtain ⟨single, singleText⟩ := cutsInto_bytewise (before ++ [0, byte] ++ after)
    obtain ⟨beforeCut, beforeText⟩ := cutsInto_bytewise before
    obtain ⟨afterCut, afterText⟩ := cutsInto_bytewise after
    obtain ⟨pairCut, pairText⟩ := cutsInto_behind_zero byte
    obtain ⟨headCut, headText⟩ := beforeCut.append pairCut
    obtain ⟨wholeCut, wholeText⟩ := headCut.append afterCut
    -- The single bytes keep the byte behind the zero byte, the pair loses it.
    have lengths := congrArg List.length (same _ _ single wholeCut)
    rw [singleText, wholeText, headText, beforeText, pairText, afterText]
      at lengths
    simp [nonzero] at lengths
  · intro zerosLast first second firstCut secondCut
    rw [textOf_eq_cString (firstCut.stream_eq ▸ zerosLast),
      textOf_eq_cString (secondCut.stream_eq ▸ zerosLast), firstCut.stream_eq,
      secondCut.stream_eq]

/-! ## Two runs of the receive loop -/

namespace Reception

/-- What the callback was passed, and what is left in `m_CmdBuffer`. -/
def outcomeOf (reception : Reception) : List Bytes × Bytes :=
  (reception.delivered.map Invocation.command, reception.transport.cmdBuffer)

/-- Every two cuts of the stream make the loop deliver the same strings and
leave the same `m_CmdBuffer`. -/
def SegmentationIndependent
    (transport : SocketTransport)
    (stream : Bytes) : Prop :=
  ∀ first second, CutsInto first stream → CutsInto second stream →
    ∃ seen,
      (receive transport first).map outcomeOf = some seen ∧
        (receive transport second).map outcomeOf = some seen

/-- A cut received on an open connection is delivered as the text behind
`m_CmdBuffer`. -/
theorem outcomeOf_receive
    {transport : SocketTransport}
    {outcomes : List RxOutcome}
    (framer : transport.Framer)
    (online : transport.Online)
    (remains : ∀ outcome ∈ outcomes, outcome.recv.Open) :
    (receive transport outcomes).map outcomeOf =
      some
        (terminated newline (transport.cmdBuffer ++ textOf outcomes),
          residue newline (transport.cmdBuffer ++ textOf outcomes)) := by
  obtain ⟨reception, performed, framed⟩ := receive_framed framer outcomes
  have received : reception.received = textOf outcomes :=
    (received_of_open (framed_start framer) online remains performed).2
  rw [performed, Option.map_some, outcomeOf, framed.delivered, framed.cmdBuffer,
    received, map_command_numbered]

/-- What is delivered and what is left tell the text. -/
theorem outcome_inj
    {left right : Bytes} :
    (terminated newline left, residue newline left) =
        (terminated newline right, residue newline right) ↔
      left = right := by
  constructor
  · intro same
    obtain ⟨sameTerminated, sameResidue⟩ := Prod.mk.inj same
    rw [← flatten_terminated_append_residue newline left, sameTerminated,
      sameResidue, flatten_terminated_append_residue]
  · rintro rfl
    rfl

/-- Whenever a loop has a client to read from, all cuts of a stream are
delivered alike exactly when the zero bytes of the stream stand behind all its
other bytes. -/
theorem segmentationIndependent_iff_zerosLast
    {socket : LinuxSocket}
    {past : List RxOutcome}
    {earlier : Reception}
    (reached : receive (.new socket) past = some earlier)
    (online : earlier.transport.Online)
    (stream : Bytes) :
    SegmentationIndependent earlier.transport stream ↔ ZerosLast stream := by
  have framer : earlier.transport.Framer := by
    obtain ⟨other, performed, framed⟩ :=
      receive_framed (SocketTransport.framer_new socket) past
    rw [reached, Option.some.injEq] at performed
    exact performed ▸ framed.framer
  rw [← textOf_eq_of_cutsInto_iff]
  unfold SegmentationIndependent
  refine forall₄_congr fun first second firstCut secondCut => ?_
  rw [outcomeOf_receive framer online firstCut.remains,
    outcomeOf_receive framer online secondCut.remains]
  simp only [Option.some.injEq, exists_eq_left', outcome_inj,
    List.append_cancel_left_eq]
  exact eq_comm

/-- The stream of a command that ends in a newline is delivered alike under
all cuts. -/
theorem segmentationIndependent_one_command :
    SegmentationIndependent (.new acceptedSocket) (ascii ['a', '\n']) :=
  (@segmentationIndependent_iff_zerosLast acceptedSocket [] _ rfl
    ⟨rfl, by decide⟩ _).mpr (by decide)

/-- A zero byte inside a command: in one chunk the command ends there, in two
chunks it does not. -/
theorem not_segmentationIndependent_zero_inside :
    ¬ SegmentationIndependent (.new acceptedSocket)
      [0x61, 0, 0x62, newline] := by
  intro independent
  obtain ⟨cut, -⟩ := cutsInto_bytewise [0x61, 0, 0x62, newline]
  have whole :
      CutsInto
        [polled invalidSocket
          (.data ⟨[0x61, 0, 0x62, newline], by decide, by decide⟩)]
        [0x61, 0, 0x62, newline] :=
    ⟨by simp [polled, RecvOutcome.Open], rfl⟩
  obtain ⟨seen, single, block⟩ := independent _ _ cut whole
  have framer := SocketTransport.framer_new acceptedSocket
  rw [outcomeOf_receive framer ⟨rfl, by decide⟩ cut.remains] at single
  rw [outcomeOf_receive framer ⟨rfl, by decide⟩ whole.remains, ← single] at block
  revert block
  decide

end Reception
end ProtobufSandbox
