import Mathlib.Data.List.Forall2
import Mathlib.Data.Rat.Defs
import ProtobufSandbox.Bytes

/-!
# Items of a JSON tree

A `cJSON` item with the items of its `child` chain in order. Which of its
fields an item uses depends on its type: `content` is what the used fields of a
whole tree say, and it ignores the others.

Numbers are exact: `valuedouble` is the rational that the `double` stands for.
-/

namespace ProtobufSandbox

/-- A string in memory: the bytes in front of its terminator. -/
abbrev CString := { text : Bytes // (0 : UInt8) ∉ text }

/-- What a `char *` to a buffer denotes. -/
def CString.ofBuffer (buffer : Bytes) : CString :=
  ⟨cString buffer, zero_not_mem_cString buffer⟩

@[simp] theorem CString.ofBuffer_val (text : CString) :
    CString.ofBuffer text.val = text :=
  Subtype.ext (cString_eq_self text.property)

/-- `cJSON_False`, …, `cJSON_Object`, in the order of their numbers. -/
inductive CJSONType where
  | false
  | true
  | null
  | number
  | string
  | array
  | object
  deriving DecidableEq, Repr

/-- `struct cJSON`, with the chain of its children as a list. -/
structure CJSON where
  child : List CJSON
  type : CJSONType
  valuestring : Option CString
  valueint : Int32
  valuedouble : Rat
  string : Option CString

/-- What a tree says. The entries of an array or object carry their names. -/
inductive Content where
  | false
  | true
  | null
  | number (valueint : Int32) (valuedouble : Rat)
  | string (valuestring : Option CString)
  | array (entries : List (Option CString × Content))
  | object (entries : List (Option CString × Content))

namespace CJSON

/-- `cJSON_New_Item`: every field is zero. -/
def newItem : CJSON where
  child := []
  type := .false
  valuestring := none
  valueint := 0
  valuedouble := 0
  string := none

/-- The items whose `child` chain is used. -/
def IsContainer (item : CJSON) : Prop :=
  item.type = .array ∨ item.type = .object

instance (item : CJSON) : Decidable item.IsContainer :=
  inferInstanceAs (Decidable (_ ∨ _))

mutual

/-- What an item and everything under it say. -/
def content : CJSON → Content
  | ⟨child, type, valuestring, valueint, valuedouble, _⟩ =>
      match type with
      | .false => .false
      | .true => .true
      | .null => .null
      | .number => .number valueint valuedouble
      | .string => .string valuestring
      | .array => .array (contents child)
      | .object => .object (contents child)

/-- The entries of a chain of children. -/
def contents : List CJSON → List (Option CString × Content)
  | [] => []
  | item :: items => (item.string, item.content) :: contents items

end

mutual

/-- The items of a tree, down through its arrays and objects. -/
def nodes : CJSON → List CJSON
  | ⟨child, type, valuestring, valueint, valuedouble, string⟩ =>
      ⟨child, type, valuestring, valueint, valuedouble, string⟩ ::
        if type = .array ∨ type = .object then nodesOf child else []

/-- The items of the trees in a chain. -/
def nodesOf : List CJSON → List CJSON
  | [] => []
  | item :: items => item.nodes ++ nodesOf items

end

/-- The children of an item are smaller trees. -/
theorem sizeOf_lt_of_mem_child
    {item child : CJSON}
    (present : child ∈ item.child) :
    sizeOf child < sizeOf item := by
  have smaller := List.sizeOf_lt_of_mem present
  cases item
  simp only [CJSON.mk.sizeOf_spec] at smaller ⊢
  omega

/-- A property of trees that passes from the children of an item to the item
holds of every tree. -/
theorem induction
    {motive : CJSON → Prop}
    (node : ∀ item : CJSON, (∀ child ∈ item.child, motive child) → motive item)
    (item : CJSON) :
    motive item := by
  apply node
  intro child present
  exact induction node child
termination_by sizeOf item
decreasing_by
  exact sizeOf_lt_of_mem_child present

theorem contents_eq_map (items : List CJSON) :
    contents items = items.map fun item => (item.string, item.content) := by
  induction items with
  | nil => rfl
  | cons item items inductionHypothesis =>
      rw [List.map_cons, ← inductionHypothesis]
      rfl

/-- Two items that say the same under the same name. -/
def Same (left right : CJSON) : Prop :=
  left.string = right.string ∧ left.content = right.content

theorem contents_eq_iff (left right : List CJSON) :
    contents left = contents right ↔ List.Forall₂ Same left right := by
  rw [contents_eq_map, contents_eq_map, ← List.forall₂_eq_eq_eq,
    List.forall₂_map_left_iff, List.forall₂_map_right_iff]
  simp only [Prod.mk.injEq]
  rfl

/-- Two items say the same when they agree in name and type, strings in their
text, numbers in both fields, and arrays and objects entry by entry. -/
theorem same_iff (left right : CJSON) :
    Same left right ↔
      left.string = right.string ∧ left.type = right.type ∧
      (left.type = .string → left.valuestring = right.valuestring) ∧
      (left.type = .number →
        left.valueint = right.valueint ∧
          left.valuedouble = right.valuedouble) ∧
      (left.IsContainer → List.Forall₂ Same left.child right.child) := by
  rw [Same, ← contents_eq_iff]
  cases left with
  | mk leftChild leftType =>
      cases right with
      | mk rightChild rightType =>
          cases leftType <;> cases rightType <;>
            simp [content, IsContainer]

theorem nodesOf_eq_flatMap (items : List CJSON) :
    nodesOf items = items.flatMap nodes := by
  induction items with
  | nil => rfl
  | cons item items inductionHypothesis =>
      rw [List.flatMap_cons, ← inductionHypothesis]
      rfl

theorem content_array
    {item : CJSON}
    (array : item.type = .array) :
    item.content = .array (contents item.child) := by
  cases item
  subst array
  rfl

theorem content_object
    {item : CJSON}
    (object : item.type = .object) :
    item.content = .object (contents item.child) := by
  cases item
  subst object
  rfl

theorem content_number
    {item : CJSON}
    (number : item.type = .number) :
    item.content = .number item.valueint item.valuedouble := by
  cases item
  subst number
  rfl

theorem nodes_eq (item : CJSON) :
    item.nodes =
      item :: if item.IsContainer then nodesOf item.child else [] := by
  cases item
  rfl

/-- An item is among the items of its tree. -/
theorem mem_nodes_self (item : CJSON) : item ∈ item.nodes := by
  rw [nodes_eq]
  exact List.mem_cons_self

/-- The tree of an array or object has the items of its entries. -/
theorem mem_nodes_of_mem_child
    {item child node : CJSON}
    (container : item.IsContainer)
    (present : child ∈ item.child)
    (below : node ∈ child.nodes) :
    node ∈ item.nodes := by
  have inChain : node ∈ nodesOf item.child := by
    rw [nodesOf_eq_flatMap]
    exact List.mem_flatMap.mpr ⟨child, present, below⟩
  rw [nodes_eq, if_pos container]
  exact List.mem_cons_of_mem _ inChain

/-- An item as a writer of JSON expects it: a string item has a string, a
number item has the same number in both fields, the members of an object have
names and the elements of an array have none. -/
structure WellFormedNode (item : CJSON) : Prop where
  string : item.type = .string → item.valuestring.isSome
  number : item.type = .number → item.valuedouble = item.valueint.toInt
  elements : item.type = .array → ∀ element ∈ item.child, element.string = none
  members : item.type = .object → ∀ member ∈ item.child, member.string.isSome

theorem wellFormedNode_iff (item : CJSON) :
    item.WellFormedNode ↔
      (item.type = .string → item.valuestring.isSome) ∧
      (item.type = .number → item.valuedouble = item.valueint.toInt) ∧
      (item.type = .array → ∀ element ∈ item.child, element.string = none) ∧
      (item.type = .object → ∀ member ∈ item.child, member.string.isSome) :=
  ⟨fun ⟨string, number, elements, members⟩ =>
      ⟨string, number, elements, members⟩,
    fun ⟨string, number, elements, members⟩ =>
      ⟨string, number, elements, members⟩⟩

instance (item : CJSON) : Decidable item.WellFormedNode :=
  decidable_of_iff' _ item.wellFormedNode_iff

/-- Every item of the tree is well formed. -/
def WellFormed (item : CJSON) : Prop :=
  ∀ node ∈ item.nodes, node.WellFormedNode

instance (item : CJSON) : Decidable item.WellFormed :=
  inferInstanceAs (Decidable (∀ node ∈ item.nodes, node.WellFormedNode))

theorem WellFormed.node
    {item : CJSON}
    (wellFormed : item.WellFormed) :
    item.WellFormedNode :=
  wellFormed item item.mem_nodes_self

/-- The entries of a well-formed array or object are well formed. -/
theorem WellFormed.of_mem_child
    {item child : CJSON}
    (wellFormed : item.WellFormed)
    (container : item.IsContainer)
    (present : child ∈ item.child) :
    child.WellFormed := by
  intro node below
  exact wellFormed node (mem_nodes_of_mem_child container present below)

end CJSON
end ProtobufSandbox
