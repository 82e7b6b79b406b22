import ProtobufSandbox.Json.Attributes
import ProtobufSandbox.Json.File
import ProtobufSandbox.Json.Shape
import ProtobufSandbox.Processor.CommandProcessor
import ProtobufSandbox.Socket.LinuxSocket

/-!
# Start-up of the server

From the configuration that is read to the answer of `CommandProcessor::init`.
The look-ups are chained: what one finds is handed to the next one, and only
some of them are checked for having found something.
-/

namespace ProtobufSandbox

open CJSON

/-- `SocketTransport::init`, with the socket of `UseSocket`. -/
def SocketTransport.init (socket : Option LinuxSocket) : Bool :=
  socket.isSome

namespace CommandProcessor

/-- The keys of the configuration that `init` looks up. -/
def ipAddressKey : Bytes :=
  ascii ['i', 'p', 'A', 'd', 'd', 'r', 'e', 's', 's']

def portKey : Bytes :=
  ascii ['p', 'o', 'r', 't']

def exitOnQuitKey : Bytes :=
  ascii ['e', 'x', 'i', 't', '_', 'o', 'n', '_', 'q', 'u', 'i', 't']

def imgEngineKey : CString :=
  keyOf ['i', 'm', 'g', 'E', 'n', 'g', 'i', 'n', 'e']

def imgEngTypeKey : Bytes :=
  ascii ['i', 'm', 'g', 'E', 'n', 'g', '_', 't', 'y', 'p', 'e']

/-- `CommandProcessor::init`: what it returns, and the object after it. The
outcome is what the calls of the socket answer. -/
def init
    (processor : CommandProcessor)
    (outcome : InitOutcome)
    (config : List CJSON) : Except AttributeError (Bool × CommandProcessor) := do
  match ← getAttributeValueString config ipAddressKey with
  | none => return (false, processor)
  | some _ =>
      match ← getAttributeValueInt config portKey with
      | none => return (false, processor)
      | some port =>
          let exitOnQuit ← getAttributeValueBool config exitOnQuitKey
          let processor := { processor with exitOnQuit := exitOnQuit.getD true }
          -- A server listens on the port and does not use the address.
          let listening := LinuxSocket.new.init .server port.toInt outcome
          if listening.returns = false then return (false, processor)
          if SocketTransport.init (some listening.socket) = false then
            return (false, processor)
          match config with
          | [] => throw .nullItem
          | item :: _ =>
              match item.getObjectItem imgEngineKey with
              | [] => return (false, processor)
              | engine :: siblings =>
                  match ← getAttributeValueString (engine :: siblings)
                      imgEngTypeKey with
                  | none => return (false, processor)
                  | some _ => return (true, processor)

end CommandProcessor

/-- The keys of the configuration that `main` looks up. -/
def debugKey : Bytes :=
  ascii ['d', 'e', 'b', 'u', 'g']

def commandProcessorKey : CString :=
  keyOf ['C', 'o', 'm', 'm', 'a', 'n', 'd', 'P', 'r', 'o', 'c', 'e', 's', 's',
    'o', 'r']

/-- `main`, from the configuration to the answer of `init`: the `debug` flag, the
answer, and the processor. -/
def startUp
    (outcome : InitOutcome)
    (config : CJSON) :
    Except AttributeError (Bool × Bool × CommandProcessor) := do
  let debug ← getAttributeValueBool [config] debugKey
  let cmd_config := config.getObjectItem commandProcessorKey
  let initialized ← (CommandProcessor.new true).init outcome cmd_config
  return (debug.getD false, initialized)

namespace CJSON

/-! ## Chains of named items -/

/-- A chain of parsed items that all have names, as the members of a parsed
object are. -/
def NamedChain (items : List CJSON) : Prop :=
  ∀ item ∈ items, item.Parsed ∧ item.string.isSome

/-- The members of a parsed object. -/
theorem Parsed.namedChain
    {object : CJSON}
    (parsed : object.Parsed)
    (isObject : object.type = .object) :
    NamedChain object.child :=
  fun member present =>
    ⟨parsed.of_mem_child present, parsed.node.members isObject member present⟩

/-- Only an object has something to be looked up, and the rest of its members
come with it. -/
theorem Parsed.getObjectItem
    {item first : CJSON}
    {rest : List CJSON}
    {key : CString}
    (parsed : item.Parsed)
    (found : item.getObjectItem key = first :: rest) :
    item.type = .object ∧ NamedChain (first :: rest) := by
  have within : ∀ member ∈ first :: rest, member ∈ item.child := by
    intro member present
    rw [← found] at present
    exact (List.dropWhile_sublist _).subset present
  have isFirst : first ∈ item.child := within first List.mem_cons_self
  have like : first.namedLike key = true := by
    have stopped := List.head?_dropWhile_not
      (fun member : CJSON => !member.namedLike key) item.child
    unfold CJSON.getObjectItem at found
    simpa [found] using stopped
  obtain ⟨own, named⟩ := exists_name_of_namedLike like
  obtain ⟨string, present, -⟩ := Option.map_eq_some_iff.mp named
  have isObject := parsed.type_eq_object isFirst (present ▸ Option.some_ne_none string)
  exact ⟨isObject, fun member present =>
    parsed.namedChain isObject member (within member present)⟩

/-- The items that the getters search are named when the chain is. -/
theorem NamedChain.subitems
    {item : CJSON}
    {next : List CJSON}
    (named : NamedChain (item :: next))
    (scalar : CJSONType → Bool) :
    NamedChain (subitems scalar item next) := by
  unfold CJSON.subitems
  split
  · exact named
  · split
    · next isObject =>
        exact (named item List.mem_cons_self).1.namedChain isObject
    · exact fun other present => named other (List.mem_cons_of_mem _ present)

/-- A getter finds an item of the chain that has the type, or none. -/
theorem NamedChain.exists_getAttribute
    {item : CJSON}
    {next : List CJSON}
    (named : NamedChain (item :: next))
    (scalar accepts : CJSONType → Bool)
    (key : Bytes) :
    ∃ found, getAttribute scalar accepts (item :: next) key = .ok found ∧
      ∀ other ∈ found, other.Parsed ∧ accepts other.type = true := by
  have searched := named.subitems scalar
  obtain ⟨found, finds⟩ := @exists_findAttribute key accepts _ fun item isItem =>
    (searched item isItem).2
  refine ⟨found.map Prod.snd, by rw [getAttribute, finds]; rfl, ?_⟩
  intro other isOther
  obtain ⟨⟨index, same⟩, present, rfl⟩ := Option.map_eq_some_iff.mp isOther
  subst present
  obtain ⟨there, -, accepted⟩ := of_findAttribute_eq_some finds
  exact ⟨(searched _ (List.mem_of_getElem? there)).1, accepted⟩

section Getters

variable {item : CJSON} {next : List CJSON}

theorem NamedChain.exists_getAttributeValueInt
    (named : NamedChain (item :: next))
    (key : Bytes) :
    ∃ value, getAttributeValueInt (item :: next) key = .ok value := by
  obtain ⟨found, got, -⟩ := named.exists_getAttribute isNumber isNumber key
  exact ⟨found.map CJSON.valueint, by rw [getAttributeValueInt, got]; rfl⟩

theorem NamedChain.exists_getAttributeValueBool
    (named : NamedChain (item :: next))
    (key : Bytes) :
    ∃ value, getAttributeValueBool (item :: next) key = .ok value := by
  obtain ⟨found, got, -⟩ :=
    named.exists_getAttribute isBool (fun _ => true) key
  exact ⟨_, by rw [getAttributeValueBool, got]; rfl⟩

/-- A string that the parser built is there. -/
theorem NamedChain.exists_getAttributeValueString
    (named : NamedChain (item :: next))
    (key : Bytes) :
    ∃ value, getAttributeValueString (item :: next) key = .ok value := by
  obtain ⟨found, got, parsed⟩ :=
    named.exists_getAttribute isString isString key
  cases found with
  | none => exact ⟨none, by rw [getAttributeValueString, got]; rfl⟩
  | some other =>
      obtain ⟨otherParsed, isString⟩ := parsed other rfl
      obtain ⟨valuestring, present⟩ := Option.isSome_iff_exists.mp
        (otherParsed.node.string (of_decide_eq_true isString))
      refine ⟨some valuestring.val, ?_⟩
      rw [getAttributeValueString, got]
      simp only [bind, Except.bind, present]
      rfl

end Getters

end CJSON

/-! ## The end of the start-up -/

/-- `init` comes to an answer on every chain of parsed items with names,
whatever the socket does. -/
theorem CommandProcessor.exists_init
    {item : CJSON}
    {next : List CJSON}
    (named : NamedChain (item :: next))
    (processor : CommandProcessor)
    (outcome : InitOutcome) :
    ∃ answer, processor.init outcome (item :: next) = .ok answer := by
  obtain ⟨ipAddress, gotAddress⟩ :=
    named.exists_getAttributeValueString ipAddressKey
  obtain ⟨port, gotPort⟩ := named.exists_getAttributeValueInt portKey
  obtain ⟨exitOnQuit, gotExit⟩ :=
    named.exists_getAttributeValueBool exitOnQuitKey
  simp only [init, gotAddress, gotPort, gotExit, bind, Except.bind]
  cases ipAddress with
  | none => exact ⟨_, rfl⟩
  | some ipAddress =>
      cases port with
      | none => exact ⟨_, rfl⟩
      | some port =>
          dsimp only
          split
          · exact ⟨_, rfl⟩
          · cases looked : item.getObjectItem imgEngineKey with
            | nil => exact ⟨_, rfl⟩
            | cons engine siblings =>
                have parsed := (named item List.mem_cons_self).1
                obtain ⟨-, engines⟩ := parsed.getObjectItem looked
                obtain ⟨engType, gotType⟩ :=
                  engines.exists_getAttributeValueString imgEngTypeKey
                simp only [SocketTransport.init, Option.isSome_some,
                  Bool.true_eq_false, if_false, gotType]
                cases engType with
                | none => exact ⟨_, rfl⟩
                | some engType => exact ⟨_, rfl⟩

/-- Without a configuration `init` goes through a null pointer. -/
theorem CommandProcessor.init_nil
    (processor : CommandProcessor)
    (outcome : InitOutcome) :
    processor.init outcome [] = .error .nullItem := rfl

/-- What is read from a file was built by the parser. -/
theorem parsed_of_readJSONFromFile
    {Files : Type}
    {system : FileSystem Files}
    {files : Files}
    {before : Option CJSON}
    {filename : Bytes}
    {config : CJSON}
    (read : system.readJSONFromFile files before filename =
      .ok (true, some config)) :
    config.Parsed := by
  unfold FileSystem.readJSONFromFile at read
  dsimp only at read
  split at read
  · cases read
  · split at read
    · split at read
      · cases read
      · next JSONBuf _ =>
          have built := parse_returns JSONBuf
          cases outcome : CJSON.parse JSONBuf with
          | ok item =>
              rw [outcome] at read built
              cases read
              exact built.1
          | error error =>
              rw [outcome] at read
              cases error with
              | malformed ep => cases read
              | outOfBounds | overflow | outOfFuel => cases read
    · cases read

/-- The start-up on a configuration that was read ends with an answer of `init`
exactly if the configuration is an object with a member `CommandProcessor`,
whatever its case. Without one `init` is called with a null item, and before
that the look-up of `debug` at a boolean compares a null name. -/
theorem startUp_returns_iff
    {Files : Type}
    {system : FileSystem Files}
    {files : Files}
    {before : Option CJSON}
    {filename : Bytes}
    {config : CJSON}
    (read : system.readJSONFromFile files before filename =
      .ok (true, some config))
    (outcome : InitOutcome) :
    (∃ answer, startUp outcome config = .ok answer) ↔
      config.type = .object ∧ config.getObjectItem commandProcessorKey ≠ [] := by
  have parsed := parsed_of_readJSONFromFile read
  cases looked : config.getObjectItem commandProcessorKey with
  | nil =>
      refine iff_of_false ?_ fun both => both.2 rfl
      rintro ⟨answer, started⟩
      obtain ⟨debug, -, called⟩ := Outcome.bind_eq_ok_iff.mp started
      obtain ⟨initialized, called, -⟩ := Outcome.bind_eq_ok_iff.mp called
      rw [looked, CommandProcessor.init_nil] at called
      cases called
  | cons member siblings =>
      obtain ⟨isObject, named⟩ := parsed.getObjectItem looked
      refine iff_of_true ?_ ⟨isObject, List.cons_ne_nil member siblings⟩
      have members : subitems isBool config [] = config.child := by
        simp [subitems, isObject, isBool]
      obtain ⟨found, searched⟩ := @exists_findAttribute debugKey (fun _ => true) _
        (parsed.node.members isObject)
      obtain ⟨initialized, called⟩ :=
        CommandProcessor.exists_init named (.new true) outcome
      rw [← members] at searched
      simp only [startUp, getAttributeValueBool, getAttribute, searched, looked,
        called]
      exact ⟨_, rfl⟩

/-- `{"CommandProcessor":{}}`. -/
def withoutAddress : Bytes :=
  openBrace :: quote ::
    (commandProcessorKey.val ++
      [quote, colon, openBrace, closeBrace, closeBrace])

/-- A configuration without an address is rejected by an answer. -/
theorem startUp_returns_without_address :
    ∃ config,
      FileSystem.inMemory.readJSONFromFile (fun _ => some withoutAddress) none
          (ascii ['c']) =
        .ok (true, some config) ∧
      ∃ answer, startUp (.listening 3) config = .ok answer := by
  refine ⟨_, rfl, ?_⟩
  have read : FileSystem.inMemory.readJSONFromFile
      (fun _ => some withoutAddress) none (ascii ['c']) = .ok (true, some _) := rfl
  exact (startUp_returns_iff read (.listening 3)).mpr
    ⟨rfl, List.cons_ne_nil _ _⟩

/-- On the configuration `{}` the server goes through a null pointer. -/
theorem startUp_fails_on_empty_object :
    ∃ config,
      FileSystem.inMemory.readJSONFromFile
          (fun _ => some [openBrace, closeBrace]) none (ascii ['c']) =
        .ok (true, some config) ∧
      ∀ outcome, startUp outcome config = .error .nullItem :=
  ⟨_, rfl, fun _ => rfl⟩

end ProtobufSandbox
