import ProtobufSandbox.Json.Attributes
import ProtobufSandbox.Json.Remainder
import ProtobufSandbox.Json.Scalars
import ProtobufSandbox.Processor.Replies
import ProtobufSandbox.Protocol.RequestLeg
import ProtobufSandbox.Socket.Arrivals

/-!
# The response leg

The server sends the wire encodings of its responses one after the other; the
client reads lines and parses them as JSON. The first response, when it is there
alone, is not long enough to spell an object with an id in front of an end of
line, so that no run with a response is understood in every schedule.
-/

namespace ProtobufSandbox

/-! ## The server -/

/-- The getter of the id, zero by default. -/
def Response.id (response : Response) : Int32 :=
  response.id_.getD 0

/-- The system calls of `processCommands` for some responses, where every `send`
takes all its bytes. -/
def sendResponses (socket : LinuxSocket) (responses : List Response) : List SysCall :=
  sendMessages socket (responses.map Response.serializeToString)

/-! ## The client -/

/-- `readLineFromSocket` of the client: the string and the socket after it. The
`true` that it passes stands in the place of the timeout. -/
def readLineFromSocket
    (socket : LinuxSocket)
    (outcomes : List ReadOutcome) : Option (Bytes × LinuxSocket) :=
  if socket.connectionState = .connected then
    (socket.readLine 512 1000000 false outcomes).map fun read =>
      (if read.returns then read.rcvBuffer else [], read.socket)
  else some ([], socket)

/-- What the client takes for the id of a response. -/
def responseId (line : Bytes) : Option Int32 :=
  match CJSON.parse (line ++ [0]) with
  | .ok resp_obj =>
      (CJSON.getAttributeDefaultInt [resp_obj] (ascii ['i', 'd']) (-1)).toOption
  | .error _ => none

/-- For each call of the client, the bytes of the stream that have arrived by
each of its reads. -/
abbrev Schedule := List (List Nat)

/-- A call that makes exactly these reads. -/
def readExactly
    (socket : LinuxSocket)
    (outcomes : List ReadOutcome) : Option (Bytes × LinuxSocket) :=
  if outcomes ≠ [] ∧ (readLineFromSocket socket outcomes.dropLast).isSome then
    none
  else readLineFromSocket socket outcomes

/-- The strings that successive calls return. -/
def readLines
    (stream : Bytes) : LinuxSocket → Nat → Schedule → Option (List Bytes)
  | _, _, [] => some []
  | socket, consumed, arrivals :: schedule => do
      let outcomes := answers stream consumed arrivals
      let (line, socket) ← readExactly socket outcomes
      let lines ←
        readLines stream socket (consumed + (bytesRead outcomes).length) schedule
      return line :: lines

/-- A schedule with one call for each message, which has arrived by the last read
of the call. What has arrived stays. -/
structure InTime (messages : List Bytes) (schedule : Schedule) : Prop where
  calls : schedule.length = messages.length
  ordered : schedule.flatten.Pairwise (· ≤ ·)
  arrived : ∀ (call : Nat) (arrivals : List Nat), schedule[call]? = some arrivals →
    ∃ last ∈ arrivals.getLast?, (messages.take (call + 1)).flatten.length ≤ last

/-- Every response comes as a string of its own, from which its id is read. -/
def Understood (responses : List Response) (lines : List Bytes) : Prop :=
  List.Forall₂
    (fun response line => line ≠ [] ∧ responseId line = some response.id)
    responses lines

/-! ## A schedule for every run -/

section Schedules

variable {client : LinuxSocket}

/-- Once a part of the stream has arrived, a call ends. -/
theorem exists_readExactly
    (connected : client.connectionState = .connected)
    (stream : Bytes)
    (consumed arrived : Nat) :
    ∃ count line,
      readExactly client
        (answers stream consumed (List.replicate (count + 1) arrived)) =
          some (line, client) := by
  have ends : ∃ count, (readLineFromSocket client
      (answers stream consumed (List.replicate count arrived))).isSome := by
    simp only [readLineFromSocket, if_pos connected, Option.isSome_map]
    exact LinuxSocket.exists_count stream arrived consumed _
  classical
  have first := Nat.find_spec ends
  have before (count : Nat) := @Nat.find_min _ _ ends count
  generalize Nat.find ends = least at first before
  cases least with
  | zero =>
      rw [readLineFromSocket, if_pos connected] at first
      cases first
  | succ count =>
      obtain ⟨⟨line, socket⟩, returned⟩ := Option.isSome_iff_exists.mp first
      obtain ⟨last, further⟩ :=
        exists_answers_concat stream consumed (List.replicate count arrived) arrived
      refine ⟨count, line, ?_⟩
      have earlier := before count (Nat.lt_succ_self count)
      have same : socket = client := by
        rw [readLineFromSocket, if_pos connected] at returned
        obtain ⟨read, finished, pair⟩ := Option.map_eq_some_iff.mp returned
        cases pair
        exact LinuxSocket.readLineLoop_socket_eq
          (closed_not_mem_answers stream consumed _) rfl finished
      rw [readExactly, if_neg, returned, same]
      · rintro ⟨-, sooner⟩
        rw [List.replicate_succ', further, List.dropLast_concat] at sooner
        exact earlier sooner

/-- Behind some bytes that have been sent, the messages arrive one by one, each
before the first read of its call. -/
structure OneByOne
    (messages : List Bytes)
    (sent : Nat)
    (schedule : Schedule) : Prop where
  calls : schedule.length = messages.length
  ordered : schedule.flatten.Pairwise (· ≤ ·)
  later : ∀ arrived ∈ schedule.flatten, sent ≤ arrived
  arrived : ∀ (call : Nat) (arrivals : List Nat), schedule[call]? = some arrivals →
    ∃ last ∈ arrivals.getLast?,
      sent + (messages.take (call + 1)).flatten.length ≤ last
  alone : ∀ arrivals ∈ schedule.head?, ∀ arrived ∈ arrivals,
    arrived ≤ sent + (messages.head?.getD []).length

theorem OneByOne.nil (sent : Nat) : OneByOne [] sent [] where
  calls := rfl
  ordered := List.Pairwise.nil
  later _ present := absurd present List.not_mem_nil
  arrived _ _ there := absurd there (Option.not_mem_none _)
  alone _ present := absurd present (Option.not_mem_none _)

/-- A call with a message of its own in front. -/
theorem OneByOne.cons
    {messages : List Bytes}
    {message : Bytes}
    {sent : Nat}
    {schedule : Schedule}
    (oneByOne : OneByOne messages (sent + message.length) schedule)
    (count : Nat) :
    OneByOne (message :: messages) sent
      (List.replicate (count + 1) (sent + message.length) :: schedule) where
  calls := congrArg Nat.succ oneByOne.calls
  ordered := by
    rw [List.flatten_cons, List.pairwise_append]
    refine ⟨List.pairwise_replicate.mpr (.inr le_rfl), oneByOne.ordered, ?_⟩
    intro earlier present other behind
    exact List.eq_of_mem_replicate present ▸ oneByOne.later other behind
  later := by
    intro other present
    rw [List.flatten_cons] at present
    cases List.mem_append.mp present with
    | inl now =>
        exact List.eq_of_mem_replicate now ▸ Nat.le_add_right sent message.length
    | inr behind =>
        exact (Nat.le_add_right sent message.length).trans
          (oneByOne.later other behind)
  arrived := by
    intro call arrivals there
    cases call with
    | zero =>
        cases there
        refine ⟨sent + message.length, ?_, ?_⟩
        · rw [List.getLast?_replicate]
          rfl
        · simp
    | succ call =>
        obtain ⟨last, isLast, enough⟩ := oneByOne.arrived call arrivals there
        refine ⟨last, isLast, ?_⟩
        rw [List.take_succ_cons, List.flatten_cons, List.length_append]
        omega
  alone := by
    rintro arrivals ⟨rfl⟩ other present
    exact (List.eq_of_mem_replicate present).le

/-- Such a schedule is in time. -/
theorem OneByOne.inTime
    {messages : List Bytes}
    {schedule : Schedule}
    (oneByOne : OneByOne messages 0 schedule) :
    InTime messages schedule where
  calls := oneByOne.calls
  ordered := oneByOne.ordered
  arrived := by simpa only [Nat.zero_add] using oneByOne.arrived

/-- The calls of a client end when the messages arrive one by one. -/
theorem exists_oneByOne
    (connected : client.connectionState = .connected)
    (stream : Bytes)
    (messages : List Bytes)
    (consumed sent : Nat) :
    ∃ schedule lines,
      OneByOne messages sent schedule ∧
        readLines stream client consumed schedule = some lines := by
  induction messages generalizing consumed sent with
  | nil => exact ⟨[], [], .nil sent, rfl⟩
  | cons message messages inductionHypothesis =>
      obtain ⟨count, line, read⟩ :=
        exists_readExactly connected stream consumed (sent + message.length)
      obtain ⟨schedule, lines, oneByOne, rest⟩ :=
        inductionHypothesis
          (consumed + (bytesRead (answers stream consumed
            (List.replicate (count + 1) (sent + message.length)))).length)
          (sent + message.length)
      refine ⟨_, line :: lines, oneByOne.cons count, ?_⟩
      simp only [readLines, read, rest, Option.bind_eq_bind, Option.bind_some]
      rfl

end Schedules

/-! ## What the client makes of a short text -/

/-- An id other than the default is that of a member of an object. -/
theorem exists_member_of_responseId
    {line : Bytes}
    {value : Int32}
    (set : value ≠ -1)
    (taken : responseId line = some value) :
    ∃ resp_obj, CJSON.parse (line ++ [0]) = .ok resp_obj ∧
      resp_obj.type = .object ∧
      ∃ member ∈ resp_obj.child, member.NumberNamed ∧ member.valueint = value := by
  unfold responseId at taken
  cases parsed : CJSON.parse (line ++ [0]) with
  | error error => simp [parsed] at taken
  | ok resp_obj =>
      simp only [parsed] at taken
      have unnamed : resp_obj.string = none :=
        ((CJSON.parse_returns _).of_eq_ok parsed).2
      refine ⟨resp_obj, rfl, ?_⟩
      cases answered : CJSON.getAttributeDefaultInt [resp_obj]
          (ascii ['i', 'd']) (-1) with
      | error error =>
          rw [answered] at taken
          cases taken
      | ok answer =>
          rw [answered] at taken
          obtain rfl : answer = value := Option.some.inj taken
          obtain ⟨found, asked, default⟩ := Outcome.map_eq_ok_iff.mp answered
          cases found with
          | none => exact absurd default.symm set
          | some number =>
              obtain rfl : number = answer := default
              obtain ⟨member, there, named, isNumber, isValue⟩ :=
                CJSON.of_getAttributeValueInt_eq_some asked
              obtain ⟨string, spelled, same⟩ := Option.map_eq_some_iff.mp named
              have wide : 2 ≤ string.val.length := by
                rw [same]
                decide
              unfold CJSON.subitems at there
              split at there
              · -- The item itself has no name.
                obtain rfl := List.mem_singleton.mp there
                rw [unnamed] at spelled
                cases spelled
              · split at there
                · next isObject =>
                    exact ⟨isObject, member, there,
                      ⟨isNumber, string, spelled, wide⟩, isValue⟩
                · cases there

/-- A text that starts, behind blanks, with a zero byte or with a byte from 128
on is no JSON. -/
theorem responseId_eq_none
    {line blanks rest : Bytes}
    {byte : UInt8}
    (allBlank : CJSON.IsBlank blanks)
    (spelled : line ++ [0] = blanks ++ byte :: rest)
    (outside : byte = 0 ∨ 128 ≤ byte) :
    responseId line = none := by
  have notBlank : ¬ CJSON.Skipped byte := by
    rintro ⟨nonzero, small⟩
    exact absurd (UInt8.le_trans (outside.resolve_left nonzero) small) (by decide)
  have skipped : CJSON.skip (line ++ [0]) = .ok (byte :: rest) := by
    rw [spelled, CJSON.skip_append allBlank]
    exact CJSON.skip_cons notBlank rest
  have parsed : CJSON.parse (line ++ [0]) = .error (.malformed (byte :: rest)) := by
    rw [CJSON.parse, CJSON.parseWithOpts, skipped, Outcome.ok_bind,
      CJSON.parseValue_malformed outside]
    rfl
  rw [responseId, parsed]

/-- Blanks in front of zero bytes. -/
theorem responseId_append_zeros
    {blanks : Bytes}
    (allBlank : CJSON.IsBlank blanks)
    (count : Nat) :
    responseId (blanks ++ List.replicate count 0) = none := by
  have spelled : blanks ++ List.replicate count 0 ++ [0] =
      blanks ++ 0 :: List.replicate count 0 := by
    rw [List.append_assoc, ← List.replicate_succ', List.replicate_succ]
  exact responseId_eq_none allBlank spelled (.inl rfl)

/-- An empty text. -/
theorem responseId_zeros (count : Nat) :
    responseId (List.replicate count 0) = none :=
  responseId_append_zeros (fun _ present => absurd present List.not_mem_nil) count

/-- What stands in front of zero bytes and ends with another byte leaves all of
them. -/
theorem le_length_of_suffix_zeros
    {core ending : Bytes}
    {byte : UInt8}
    {count : Nat}
    (nonzero : byte ≠ 0)
    (suffix : byte :: ending <:+ core ++ List.replicate count 0) :
    count ≤ ending.length := by
  by_contra shorter
  have inZeros : byte :: ending <:+ List.replicate count 0 := by
    apply List.suffix_of_suffix_length_le suffix (List.suffix_append core _)
    rw [List.length_cons, List.length_replicate]
    omega
  exact nonzero (List.eq_of_mem_replicate (inZeros.subset List.mem_cons_self))

/-- The item that is parsed is the value behind the blanks. -/
theorem exists_parseValue_of_parse
    {text : Bytes}
    {item : CJSON}
    (parsed : CJSON.parse text = .ok item) :
    ∃ start rest, CJSON.skip text = .ok start ∧
      CJSON.parseValue (text.length + 1) CJSON.newItem start = .ok (item, rest) := by
  obtain ⟨⟨c, ending⟩, opts, same⟩ := Outcome.bind_eq_ok_iff.mp parsed
  cases same
  obtain ⟨start, skipped, opts⟩ := Outcome.bind_eq_ok_iff.mp opts
  obtain ⟨⟨c, rest⟩, read, same⟩ := Outcome.bind_eq_ok_iff.mp opts
  cases same
  exact ⟨start, ending, skipped, read⟩

/-- Between an id and an end of line there is no room for an object with that id:
its name and number take seven bytes with the closing brace. -/
theorem responseId_ne_of_short
    {value : Int32}
    {first : UInt8}
    {blanks core : Bytes}
    (same : value.toInt = first.toNat)
    (allBlank : CJSON.IsBlank blanks)
    (short : core.length ≤ 7)
    (count : Nat) :
    responseId (0x08 :: first :: (blanks ++ core) ++ List.replicate count 0) ≠
      some value := by
  intro taken
  have set : value ≠ -1 := by
    rintro rfl
    have negative : (-1 : Int32).toInt = -1 := by decide
    omega
  obtain ⟨resp_obj, parsed, isObject, member, isMember, named, isValue⟩ :=
    exists_member_of_responseId set taken
  obtain ⟨start, rest, skipped, read⟩ := exists_parseValue_of_parse parsed
  obtain ⟨body, inside, ending, rfl, skippedBody, closes, room⟩ :=
    (CJSON.parseValue_object _ _ _).of_eq_ok read isObject
  obtain ⟨enough, exactly⟩ := room member isMember named
  have text :
      0x08 :: first :: (blanks ++ core) ++ List.replicate count 0 ++ [0] =
        0x08 :: first :: (blanks ++ (core ++ List.replicate (count + 1) 0)) := by
    rw [List.replicate_succ']
    simp
  rw [text] at skipped
  have lengths :
      (core ++ List.replicate (count + 1) (0 : UInt8)).length ≤ 7 + (count + 1) := by
    rw [List.length_append, List.length_replicate]
    omega
  -- All the zero bytes stand behind the closing brace.
  have behind (within : inside <:+ core ++ List.replicate (count + 1) 0) :
      count + 1 ≤ ending.length :=
    le_length_of_suffix_zeros (by decide) (closes.trans within)
  have control : CJSON.IsBlank [(0x08 : UInt8)] :=
    List.forall_mem_singleton.mpr (by decide)
  by_cases blank : CJSON.Skipped first
  · have allBlank : CJSON.IsBlank (0x08 :: first :: blanks) :=
      List.forall_mem_cons.mpr
        ⟨by decide, List.forall_mem_cons.mpr ⟨blank, allBlank⟩⟩
    have skippedCore :=
      (CJSON.skip_append allBlank (core ++ List.replicate (count + 1) 0)).symm.trans
        skipped
    have startWithin := (CJSON.skip_leaves _).of_eq_ok skippedCore
    have insideWithin := (CJSON.skip_leaves _).of_eq_ok skippedBody
    have zeros := behind (insideWithin.trans
      ((List.suffix_cons openBrace body).trans startWithin))
    have startLength : body.length + 1 ≤ _ := startWithin.length_le
    have insideLength : inside.length ≤ body.length := insideWithin.length_le
    omega
  · have skippedFirst :=
      (CJSON.skip_append control (first :: (blanks ++ (core ++
        List.replicate (count + 1) 0)))).symm.trans skipped
    rw [CJSON.skip_cons blank, Except.ok.injEq, List.cons.injEq] at skippedFirst
    obtain ⟨rfl, rfl⟩ := skippedFirst
    rw [CJSON.skip_append allBlank] at skippedBody
    have insideWithin := (CJSON.skip_leaves _).of_eq_ok skippedBody
    have zeros := behind insideWithin
    have insideLength : inside.length ≤ _ := insideWithin.length_le
    have small := exactly (by omega)
    rw [isValue, same] at small
    exact absurd small (by decide)

/-! ## The first response -/

/-- The varint of an id starts with a byte that starts no value, or is the id. -/
theorem int32Varint_cases (value : Int32) :
    ∃ first rest, int32Varint value = first :: rest ∧
      ((first = 0 ∨ 128 ≤ first) ∨ rest = [] ∧ value.toInt = first.toNat) := by
  have undone := int32OfVarint_signExtend value
  unfold int32Varint Varint.encode
  generalize (value.toBitVec.signExtend 64).toNat = number at undone ⊢
  by_cases small : number < 128
  · have single : Varint.encodeGroups number number = [UInt8.ofNat number] := by
      cases number with
      | zero => rfl
      | succ number => exact if_pos small
    refine ⟨UInt8.ofNat number, [], single, .inr ⟨rfl, ?_⟩⟩
    rw [Varint.toNat_ofNat_group (by omega), ← undone, int32OfVarint,
      Int32.toInt_ofBitVec, BitVec.toInt_eq_toNat_of_lt, BitVec.toNat_ofNat]
    · omega
    · rw [BitVec.toNat_ofNat]
      omega
  · obtain ⟨groups, rfl⟩ := Nat.exists_eq_add_one.mpr (show 0 < number by omega)
    refine ⟨_, _, if_neg small, .inl (.inr ?_)⟩
    rw [UInt8.le_iff_toNat_le, Varint.toNat_ofNat_group (by omega)]
    exact Nat.le_add_left _ _

/-- No text in front of an end of line in a message is understood. -/
theorem responseId_ne_of_start
    {value : Int32}
    {len tag ending : UInt8}
    {tail text : Bytes}
    (lenBlank : CJSON.Skipped len)
    (tagBlank : CJSON.Skipped tag)
    (short : tail.length ≤ 8)
    (before : text ++ [ending] <+:
      0x08 :: int32Varint value ++ 0x12 :: len :: tag :: tail)
    (count : Nat) :
    responseId (text ++ List.replicate count 0) ≠ some value := by
  obtain ⟨first, rest, spelled, kind⟩ := int32Varint_cases value
  rw [spelled] at before
  have control : CJSON.IsBlank [(0x08 : UInt8)] :=
    List.forall_mem_singleton.mpr (by decide)
  cases text with
  | nil =>
      rw [List.nil_append, responseId_zeros]
      exact Option.some_ne_none value |>.symm
  | cons byte text =>
      obtain ⟨rfl, behindTag⟩ := List.cons_prefix_cons.mp before
      clear before
      cases text with
      | nil =>
          rw [responseId_append_zeros control]
          exact Option.some_ne_none value |>.symm
      | cons other more =>
          obtain ⟨rfl, behindId⟩ := List.cons_prefix_cons.mp behindTag
          rcases kind with outside | ⟨rfl, same⟩
          · have spelled :
                0x08 :: other :: more ++ List.replicate count 0 ++ [0] =
                  [0x08] ++ other :: (more ++ List.replicate count 0 ++ [0]) := rfl
            rw [responseId_eq_none control spelled outside]
            exact Option.some_ne_none value |>.symm
          · have within : more <+: 0x12 :: len :: tag :: tail :=
              (List.prefix_append more [ending]).trans behindId
            have head : more.take 3 <+: [0x12, len, tag] := within.take 3
            have allBlank : CJSON.IsBlank (more.take 3) := by
              have three : CJSON.IsBlank [0x12, len, tag] := by
                simp only [CJSON.IsBlank, List.forall_mem_cons]
                exact ⟨by decide, lenBlank, tagBlank,
                  fun _ present => absurd present List.not_mem_nil⟩
              exact fun byte present => three byte (head.subset present)
            have lengths : (more ++ [ending]).length ≤ tail.length + 3 :=
              behindId.length_le
            rw [List.length_append, List.length_singleton] at lengths
            have core : (more.drop 3).length ≤ 7 := by
              rw [List.length_drop]
              omega
            have short := responseId_ne_of_short same allBlank core count
            rwa [List.take_append_drop] at short

/-- The varint of an id has at most ten bytes. -/
theorem length_int32Varint_le (value : Int32) :
    (int32Varint value).length ≤ 10 := by
  apply Varint.length_encodeGroups_le
  exact (value.toBitVec.signExtend 64).isLt.trans (by decide)

/-- The first response sets one field besides its id, if it is not empty. -/
theorem first_response
    {exitOnQuit : Bool}
    {events : List SessionEvent}
    {session : Session}
    {first : Exchange}
    {rest : List Exchange}
    (performed : Session.run exitOnQuit events = some session)
    (exchanges : session.exchanges = first :: rest) :
    first.response.serializeToString = [] ∨
      ∃ len tag tail, CJSON.Skipped len ∧ CJSON.Skipped tag ∧ tail.length ≤ 8 ∧
        first.response.serializeToString =
          0x08 :: int32Varint first.response.id ++ 0x12 :: len :: tag :: tail := by
  have sent : first.response = Exchange.lastResponse ([] ++ [first]) :=
    (Session.recorded_run performed).sent [] first rest exchanges
  rw [Exchange.lastResponse_concat] at sent
  rw [sent]
  cases branch : CommandProcessor.branchOf first.command with
  | quit =>
      left
      simp [Exchange.writesId, branch, Response.serializeToString]
  | status =>
      simp only [Exchange.writesId, Exchange.writesSuccess, Exchange.writesStatus,
        Exchange.writesContactRadius, Exchange.writesCenterPoint, branch]
      exact .inr ⟨2, 0x10, [0], by decide, by decide, by decide, rfl⟩
  | start | stop =>
      simp only [Exchange.writesId, Exchange.writesSuccess, Exchange.writesStatus,
        Exchange.writesContactRadius, Exchange.writesCenterPoint, branch]
      exact .inr ⟨2, 0x08, [0], by decide, by decide, by decide, rfl⟩
  | other =>
      simp only [Exchange.writesId, Exchange.writesSuccess, Exchange.writesStatus,
        Exchange.writesContactRadius, Exchange.writesCenterPoint, branch]
      exact .inr ⟨2, 0x08, [1], by decide, by decide, by decide, rfl⟩
  | query =>
      simp only [Exchange.writesId, Exchange.writesSuccess, Exchange.writesStatus,
        Exchange.writesContactRadius, Exchange.writesCenterPoint, branch]
      exact .inr ⟨9, 0x19, fixed64 first.latestResult.contactRadius, by decide,
        by decide, by simp [fixed64], rfl⟩

/-! ## End to end -/

section Legs

variable {exitOnQuit : Bool} {events : List SessionEvent} {session : Session}
variable {server client : LinuxSocket}

/-- The responses that a session has sent. -/
def Session.responses (session : Session) : List Response :=
  session.exchanges.map Exchange.response

/-- The line of the first call is a part of the first message. -/
theorem exists_text_of_readExactly
    {socket : LinuxSocket}
    {stream line : Bytes}
    {arrivals : List Nat}
    {limit : Nat}
    (connected : client.connectionState = .connected)
    (small : limit < 512)
    (alone : ∀ arrived ∈ arrivals, arrived ≤ limit)
    (returned : readExactly client (answers stream 0 arrivals) =
      some (line, socket))
    (nonempty : line ≠ []) :
    ∃ text count, line = text ++ List.replicate count 0 ∧
      (text = [] ∨ ∃ ending, text ++ [ending] <+: stream.take limit) := by
  unfold readExactly at returned
  split at returned
  · cases returned
  rw [readLineFromSocket, if_pos connected] at returned
  obtain ⟨read, finished, pair⟩ := Option.map_eq_some_iff.mp returned
  obtain ⟨rfl, -⟩ := Prod.mk.inj pair
  cases returns : read.returns with
  | false => simp [returns] at nonempty
  | true =>
      have start : LinuxSocket.Holds 512 []
          { rcvBuffer := List.replicate 512 0
            numRead := 0
            timeout_us := 1000000
            firstChar := false
            connectionState := client.connectionState } :=
        ⟨rfl, rfl, by decide⟩
      obtain ⟨more, buffer, ended⟩ :=
        LinuxSocket.line_of_readLineLoop start finished returns
      rw [List.nil_append] at buffer ended
      have within : bytesRead (answers stream 0 arrivals) <+: stream.take limit :=
        bytesRead_answers_within alone 0
      rw [if_pos rfl]
      refine ⟨more, _, buffer, ?_⟩
      rcases ended with empty | ⟨full, available⟩ | ⟨ending, available⟩
      · exact .inl empty
      · have lengths := (available.trans within).length_le
        rw [full, List.length_take] at lengths
        omega
      · exact .inr ⟨ending, available.trans within⟩

/-- A schedule in which the first response is there alone when it is read: the
client does not understand it. -/
theorem not_understood_of_alone
    {schedule : Schedule}
    {lines : List Bytes}
    (performed : Session.run exitOnQuit events = some session)
    (valid : server.clientSock ≠ invalidSocket)
    (connected : client.connectionState = .connected)
    {first : Exchange}
    {rest : List Exchange}
    (exchanges : session.exchanges = first :: rest)
    (alone : ∀ arrivals ∈ schedule.head?, ∀ arrived ∈ arrivals,
      arrived ≤ first.response.serializeToString.length)
    (read : readLines (transmitted (sendResponses server session.responses)) client
      0 schedule = some lines) :
    ¬ Understood session.responses lines := by
  intro understood
  have message := first_response performed exchanges
  have small : first.response.serializeToString.length < 512 := by
    rcases message with empty | ⟨len, tag, tail, -, -, short, spelled⟩
    · rw [empty]
      decide
    · have varint := length_int32Varint_le first.response.id
      rw [spelled]
      simp only [List.length_append, List.length_cons]
      omega
  rw [Session.responses, exchanges, List.map_cons] at understood read
  cases understood with
  | cons head tail =>
      obtain ⟨nonempty, taken⟩ := head
      cases schedule with
      | nil => cases read
      | cons arrivals schedule =>
          obtain ⟨⟨line, socket⟩, returned, read⟩ := Option.bind_eq_some_iff.mp read
          obtain ⟨lines, -, same⟩ := Option.bind_eq_some_iff.mp read
          cases same
          obtain ⟨text, count, rfl, part⟩ := exists_text_of_readExactly connected
            small (alone arrivals rfl) returned nonempty
          have arrived (rest : List Bytes) :
              ((first.response.serializeToString :: rest).flatten).take
                first.response.serializeToString.length =
                  first.response.serializeToString :=
            List.take_left
          rw [sendResponses, transmitted_sendMessages valid, List.map_cons, arrived]
            at part
          rcases part with rfl | ⟨ending, part⟩
          · rw [List.nil_append, responseId_zeros] at taken
            cases taken
          · rcases message with empty | ⟨len, tag, tail, lenBlank, tagBlank, short,
              spelled⟩
            · rw [empty] at part
              simp at part
            · rw [spelled] at part
              exact responseId_ne_of_start lenBlank tagBlank short part count taken

/-- Every session with a response has a schedule in which the client does not
understand it. -/
theorem exists_not_understood
    (performed : Session.run exitOnQuit events = some session)
    (valid : server.clientSock ≠ invalidSocket)
    (connected : client.connectionState = .connected)
    {first : Exchange}
    {rest : List Exchange}
    (exchanges : session.exchanges = first :: rest) :
    ∃ schedule lines,
      InTime (session.responses.map Response.serializeToString) schedule ∧
        readLines (transmitted (sendResponses server session.responses)) client 0
          schedule = some lines ∧
        ¬ Understood session.responses lines := by
  obtain ⟨schedule, lines, oneByOne, read⟩ :=
    exists_oneByOne connected
      (transmitted (sendResponses server session.responses))
      (session.responses.map Response.serializeToString) 0 0
  refine ⟨schedule, lines, oneByOne.inTime, read, ?_⟩
  apply not_understood_of_alone performed valid connected exchanges ?_ read
  intro arrivals isHead other present
  have early := oneByOne.alone arrivals isHead other present
  rw [Session.responses, exchanges, Nat.zero_add] at early
  exact early

/-- In every schedule the client understands what it reads exactly if there is
nothing to read. -/
theorem understood_iff_nothing_sent
    (performed : Session.run exitOnQuit events = some session)
    (valid : server.clientSock ≠ invalidSocket)
    (connected : client.connectionState = .connected) :
    (∀ schedule lines,
      InTime (session.responses.map Response.serializeToString) schedule →
        readLines (transmitted (sendResponses server session.responses)) client 0
            schedule = some lines →
          Understood session.responses lines) ↔
      session.responses = [] := by
  constructor
  · intro always
    cases exchanges : session.exchanges with
    | nil => rw [Session.responses, exchanges, List.map_nil]
    | cons first rest =>
        obtain ⟨schedule, lines, inTime, read, not⟩ :=
          exists_not_understood performed valid connected exchanges
        exact absurd (always schedule lines inTime read) not
  · intro nothing schedule lines inTime read
    rw [nothing] at inTime read ⊢
    obtain rfl : schedule = [] := List.length_eq_zero_iff.mp inTime.calls
    cases read
    exact List.Forall₂.nil

end Legs

/-- One status command, answered. -/
def oneStatusAnswered : List SessionEvent :=
  [.start, .push (.of 1 (ascii ['s', 't', 'a', 't', 'u', 's'])), .doWork]

/-- The answer is not understood in every schedule. -/
theorem understood_iff_nothing_sent_status :
    ∃ session, Session.run false oneStatusAnswered = some session ∧
      ¬ ∀ schedule lines,
        InTime (session.responses.map Response.serializeToString) schedule →
          readLines
              (transmitted
                (sendResponses Reception.acceptedSocket session.responses))
              connectedSocket 0 schedule = some lines →
            Understood session.responses lines := by
  refine ⟨_, rfl, fun always => ?_⟩
  have nothing := (@understood_iff_nothing_sent false oneStatusAnswered _
    Reception.acceptedSocket connectedSocket rfl (by decide) rfl).mp always
  exact absurd nothing (List.cons_ne_nil _ _)

/-- The six bytes of the answer arrive in time, and the client does not
understand them. -/
theorem status_response_is_not_understood :
    ∃ session schedule lines,
      Session.run false oneStatusAnswered = some session ∧
        InTime (session.responses.map Response.serializeToString) schedule ∧
        readLines
            (transmitted
              (sendResponses Reception.acceptedSocket session.responses))
            connectedSocket 0 schedule = some lines ∧
        ¬ Understood session.responses lines := by
  obtain ⟨schedule, lines, inTime, read, not⟩ :=
    @exists_not_understood false oneStatusAnswered _ Reception.acceptedSocket
      connectedSocket rfl (by decide) rfl _ _ rfl
  exact ⟨_, schedule, lines, rfl, inTime, read, not⟩

end ProtobufSandbox
