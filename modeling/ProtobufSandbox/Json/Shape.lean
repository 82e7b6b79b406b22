import ProtobufSandbox.Foundation.Outcome
import ProtobufSandbox.Json.Parse

/-!
# The shape of a parsed tree

What the parser builds from any text: strings are there, numbers are converted,
members have names and elements have none, and only arrays and objects have
children.
-/

namespace ProtobufSandbox
namespace CJSON

/-- An item as the parser builds it. -/
structure ParsedNode (item : CJSON) : Prop where
  string : item.type = .string → item.valuestring.isSome
  number : item.type = .number → item.valueint = toInt item.valuedouble
  elements : item.type = .array → ∀ element ∈ item.child, element.string = none
  members : item.type = .object → ∀ member ∈ item.child, member.string.isSome
  leaf : ¬ item.IsContainer → item.child = []

/-- Every item of the tree is as the parser builds it. -/
def Parsed (item : CJSON) : Prop :=
  ∀ node ∈ item.nodes, node.ParsedNode

theorem Parsed.node
    {item : CJSON}
    (parsed : item.Parsed) :
    item.ParsedNode :=
  parsed item item.mem_nodes_self

/-- The children of a parsed item are parsed. -/
theorem Parsed.of_mem_child
    {item child : CJSON}
    (parsed : item.Parsed)
    (present : child ∈ item.child) :
    child.Parsed := by
  by_cases container : item.IsContainer
  · intro node below
    exact parsed node (mem_nodes_of_mem_child container present below)
  · rw [parsed.node.leaf container] at present
    exact absurd present List.not_mem_nil

/-- Among parsed items only objects have members with names. -/
theorem Parsed.type_eq_object
    {item member : CJSON}
    (parsed : item.Parsed)
    (present : member ∈ item.child)
    (named : member.string ≠ none) :
    item.type = .object := by
  have container : item.IsContainer := by
    by_contra notContainer
    rw [parsed.node.leaf notContainer] at present
    exact absurd present List.not_mem_nil
  apply container.resolve_left
  intro array
  exact named (parsed.node.elements array member present)

/-- A tree is parsed when its root and all its children are. -/
theorem parsed_of_node
    {item : CJSON}
    (node : item.ParsedNode)
    (children : ∀ child ∈ item.child, child.Parsed) :
    item.Parsed := by
  intro other below
  rw [nodes_eq] at below
  cases List.mem_cons.mp below with
  | inl equal => exact equal ▸ node
  | inr deeper =>
      split at deeper
      · rw [nodesOf_eq_flatMap] at deeper
        obtain ⟨child, present, inChild⟩ := List.mem_flatMap.mp deeper
        exact children child present other inChild
      · exact absurd deeper List.not_mem_nil

/-- A part of the parse that returns what satisfies a condition. -/
abbrev Returns (post : α → Prop) (outcome : Except ParseError α) : Prop :=
  Outcome.Meets (fun _ => True) post outcome

/-- Every part of the parse returns something or other. -/
theorem returns_true (outcome : Except ParseError α) :
    Returns (fun _ => True) outcome := by
  cases outcome with
  | ok value => trivial
  | error error => trivial

/-- A reader builds a parsed tree in an item without children, and keeps the
name of the item. -/
def Builds (parse : CJSON → Bytes → Except ParseError (CJSON × Bytes)) : Prop :=
  ∀ (new : CJSON) (value : Bytes), new.child = [] →
    Returns (fun result => result.1.Parsed ∧ result.1.string = new.string)
      (parse new value)

/-! ## Leaves -/

/-- An item without children is parsed when its own fields are. -/
theorem parsed_of_leaf
    {item : CJSON}
    (childless : item.child = [])
    (string : item.type = .string → item.valuestring.isSome)
    (number : item.type = .number → item.valueint = toInt item.valuedouble) :
    item.Parsed := by
  have nothing (child : CJSON) : child ∉ item.child := by
    rw [childless]
    exact List.not_mem_nil
  apply parsed_of_node
  · exact
      { string := string
        number := number
        elements := fun _ child present => absurd present (nothing child)
        members := fun _ child present => absurd present (nothing child)
        leaf := fun _ => childless }
  · exact fun child present => absurd present (nothing child)

theorem parseNumber_builds : Builds parseNumber := by
  intro new value childless
  refine (returns_true _).bind fun sign _ => ?_
  refine (returns_true _).bind fun whole _ => ?_
  refine (returns_true _).bind fun fraction _ => ?_
  refine (returns_true _).bind fun exponent _ => ?_
  exact ⟨parsed_of_leaf childless CJSONType.noConfusion fun _ => rfl, rfl⟩

/-- A string is read into two fields of its item. -/
theorem parseString_fills
    (item : CJSON)
    (str : Bytes) :
    Returns
      (fun result => ∃ text,
        result.1 = { item with type := .string, valuestring := some text })
      (parseString item str) := by
  refine (returns_true _).bind fun first _ => ?_
  refine Outcome.Meets.ite (fun _ => trivial) fun _ => ?_
  refine (returns_true _).bind fun len _ => ?_
  refine (returns_true _).bind fun copied _ => ?_
  refine (returns_true _).bind fun out _ => ?_
  refine (returns_true _).bind fun last _ => ?_
  exact ⟨CString.ofBuffer out, rfl⟩

/-- The fields of an item that a string is read into. -/
theorem parseString_returns
    (item : CJSON)
    (str : Bytes) :
    Returns
      (fun result => result.1.type = .string ∧
        result.1.child = item.child ∧ result.1.valuestring.isSome)
      (parseString item str) := by
  refine (parseString_fills item str).mono fun result filled => ?_
  obtain ⟨text, same⟩ := filled
  rw [same]
  exact ⟨rfl, rfl, rfl⟩

theorem parseString_builds : Builds parseString := by
  intro new value childless
  refine (parseString_fills new value).mono fun result filled => ?_
  obtain ⟨text, same⟩ := filled
  rw [same]
  exact ⟨parsed_of_leaf childless (fun _ => rfl) CJSONType.noConfusion, rfl⟩

/-! ## Arrays and objects -/

section Entries

variable {entry : Bytes → Except ParseError (CJSON × Bytes)}
variable {post : CJSON → Prop}

theorem parseEntries_returns
    (reads : ∀ value, Returns (fun result => post result.1) (entry value))
    (turns : Nat)
    (value : Bytes) :
    Returns (fun result => ∀ child ∈ result.1, post child)
      (parseEntries entry turns value) := by
  induction turns generalizing value with
  | zero => trivial
  | succ turns inductionHypothesis =>
      refine (returns_true _).bind fun byte _ => ?_
      refine Outcome.Meets.ite (fun _ => ?_) fun _ => ?_
      · exact fun child present => absurd present List.not_mem_nil
      · refine (reads _).bind fun first firstPost => ?_
        refine (inductionHypothesis first.2).bind fun rest restPost => ?_
        exact List.forall_mem_cons.mpr ⟨firstPost, restPost⟩

theorem parseContainer_returns
    (opening closing : UInt8)
    (reads : ∀ value, Returns (fun result => post result.1) (entry value))
    (value : Bytes) :
    Returns (fun result => ∀ child ∈ result.1, post child)
      (parseContainer opening closing entry value) := by
  refine (returns_true _).bind fun byte _ => ?_
  refine Outcome.Meets.ite (fun _ => trivial) fun _ => ?_
  refine (returns_true _).bind fun start _ => ?_
  refine (returns_true _).bind fun byte _ => ?_
  refine Outcome.Meets.ite (fun _ => ?_) fun _ => ?_
  · exact fun child present => absurd present List.not_mem_nil
  refine (reads start).bind fun first firstPost => ?_
  refine (parseEntries_returns reads _ _).bind fun rest restPost => ?_
  refine (returns_true _).bind fun byte _ => ?_
  refine Outcome.Meets.ite (fun _ => ?_) fun _ => trivial
  exact List.forall_mem_cons.mpr ⟨firstPost, restPost⟩

end Entries

section Values

variable {parse : CJSON → Bytes → Except ParseError (CJSON × Bytes)}

theorem parseElement_returns
    (builds : Builds parse)
    (value : Bytes) :
    Returns (fun result => result.1.Parsed ∧ result.1.string = none)
      (parseElement parse value) := by
  refine (returns_true _).bind fun start _ => ?_
  refine (builds newItem start rfl).bind fun result built => ?_
  exact (returns_true _).bind fun ending _ => built

theorem parseMember_returns
    (builds : Builds parse)
    (value : Bytes) :
    Returns (fun result => result.1.Parsed ∧ result.1.string.isSome)
      (parseMember parse value) := by
  refine (returns_true _).bind fun start _ => ?_
  refine (parseString_returns newItem start).bind fun name named => ?_
  obtain ⟨-, childless, present⟩ := named
  refine (returns_true _).bind fun separator _ => ?_
  refine (returns_true _).bind fun byte _ => ?_
  refine Outcome.Meets.ite (fun _ => trivial) fun _ => ?_
  refine (returns_true _).bind fun content _ => ?_
  refine (builds { name.1 with string := name.1.valuestring, valuestring := none }
    content childless).bind fun result built => ?_
  refine (returns_true _).bind fun ending _ => ?_
  exact ⟨built.1, built.2 ▸ present⟩

theorem parseArray_builds (builds : Builds parse) :
    Builds (parseArray parse) := by
  intro new value childless
  have returns := @parseContainer_returns _
    (fun item => item.Parsed ∧ item.string = none) openBracket closeBracket
    (parseElement_returns builds) value
  refine Outcome.Meets.bind returns fun result entries => ?_
  refine ⟨parsed_of_node ?_ fun child present => (entries child present).1, rfl⟩
  exact
    { string := CJSONType.noConfusion
      number := CJSONType.noConfusion
      elements := fun _ child present => (entries child present).2
      members := CJSONType.noConfusion
      leaf := fun leaf => absurd (Or.inl rfl) leaf }

theorem parseObject_builds (builds : Builds parse) :
    Builds (parseObject parse) := by
  intro new value childless
  have returns := @parseContainer_returns _
    (fun item => item.Parsed ∧ item.string.isSome) openBrace closeBrace
    (parseMember_returns builds) value
  refine Outcome.Meets.bind returns fun result entries => ?_
  refine ⟨parsed_of_node ?_ fun child present => (entries child present).1, rfl⟩
  exact
    { string := CJSONType.noConfusion
      number := CJSONType.noConfusion
      elements := CJSONType.noConfusion
      members := fun _ child present => (entries child present).2
      leaf := fun leaf => absurd (Or.inr rfl) leaf }

end Values

theorem parseValue_builds (depth : Nat) : Builds (parseValue depth) := by
  induction depth with
  | zero => exact fun new value childless => trivial
  | succ depth inductionHypothesis =>
      intro new value childless
      have leaf {item : CJSON} (same : item.child = [])
          (kind : item.type ≠ .string ∧ item.type ≠ .number) : item.Parsed :=
        parsed_of_leaf same (fun type => absurd type kind.1)
          (fun type => absurd type kind.2)
      refine parseValue_meets trivial trivial ?null ?isFalse ?isTrue ?string ?number
        ?array ?object
      case null =>
        exact ⟨leaf childless ⟨CJSONType.noConfusion, CJSONType.noConfusion⟩, rfl⟩
      case isFalse =>
        exact ⟨leaf childless ⟨CJSONType.noConfusion, CJSONType.noConfusion⟩, rfl⟩
      case isTrue =>
        exact ⟨leaf childless ⟨CJSONType.noConfusion, CJSONType.noConfusion⟩, rfl⟩
      case string => exact parseString_builds new value childless
      case number => exact fun _ _ _ _ => parseNumber_builds new value childless
      case array => exact parseArray_builds inductionHypothesis new value childless
      case object => exact parseObject_builds inductionHypothesis new value childless

/-- Whatever the text, `cJSON_Parse` returns a parsed tree without a name. -/
theorem parse_returns (value : Bytes) :
    Returns (fun item => item.Parsed ∧ item.string = none) (parse value) := by
  refine Outcome.Meets.bind ?_ fun result built => built
  refine (returns_true _).bind fun start _ => ?_
  refine (parseValue_builds _ newItem start rfl).bind fun result built => ?_
  exact built

end CJSON
end ProtobufSandbox
