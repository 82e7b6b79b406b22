import Mathlib.Logic.Function.Basic
import ProtobufSandbox.Json.GetAfterSet

/-!
# Elements of an array

`cJSON` counts the elements of an array and walks to one of them along the chain of
its children. The getter of integer arrays does both again for each element that it
copies; it copies the first elements in order, as many as there are and are asked for.
-/

namespace ProtobufSandbox
namespace CJSON

/-! ## Walks along the children -/

/-- The loop of `cJSON_GetArraySize`. -/
def countFrom (i : Nat) : List CJSON → Nat
  | [] => i
  | _ :: next => countFrom (i + 1) next

/-- `cJSON_GetArraySize`. -/
def getArraySize (array : CJSON) : Nat :=
  countFrom 0 array.child

/-- The loop of `cJSON_GetArrayItem`, which stops at once for a negative index. -/
def walkTo (item : Int) : List CJSON → List CJSON
  | [] => []
  | c :: next => if 0 < item then walkTo (item - 1) next else c :: next

theorem countFrom_eq (i : Nat) (items : List CJSON) :
    countFrom i items = i + items.length := by
  induction items generalizing i with
  | nil => rfl
  | cons item items inductionHypothesis =>
      rw [countFrom, inductionHypothesis, List.length_cons]
      omega

/-- The size of an array is the length of its chain. -/
@[simp] theorem getArraySize_eq (array : CJSON) :
    array.getArraySize = array.child.length := by
  rw [getArraySize, countFrom_eq, Nat.zero_add]

/-- The walk drops as many items as the index says, none for a negative one. -/
theorem walkTo_eq_drop (item : Int) (items : List CJSON) :
    walkTo item items = items.drop item.toNat := by
  induction items generalizing item with
  | nil => simp [walkTo]
  | cons c next inductionHypothesis =>
      rw [walkTo]
      by_cases positive : 0 < item
      · have further : item.toNat = (item - 1).toNat + 1 := by omega
        rw [if_pos positive, inductionHypothesis, further, List.drop_succ_cons]
      · have stays : item.toNat = 0 := by omega
        rw [if_neg positive, stays, List.drop_zero]

/-! ## Arrays of integers -/

/-- The type of arrays. -/
def isArray (type : CJSONType) : Bool :=
  type = .array

/-- The loop over the elements, with the output as the integers from its pointer on. -/
def copyElements
    (subitem : CJSON)
    (nValues index : UInt32)
    (valueint : Nat → Int32) : Except AttributeError (Nat → Int32) :=
  if index.toNat < subitem.getArraySize ∧ index < nValues then
    match walkTo index.toNat subitem.child with
    | [] => .error .nullItem
    | element :: _ =>
        copyElements subitem nValues (index + 1)
          (Function.update valueint index.toNat element.valueint)
  else .ok valueint
termination_by nValues.toNat - index.toNat
decreasing_by
  rename_i inRange
  have below := UInt32.lt_iff_toNat_lt.mp inRange.2
  have bounded := nValues.toNat_lt
  rw [UInt32.toNat_add, UInt32.toNat_one]
  omega

/-- `getAttributeValue_IntArray`: its answer and the output. -/
def getAttributeValueIntArray
    (JSONObj : List CJSON)
    (key : Bytes)
    (valueint : Nat → Int32)
    (nValues : UInt32) : Except AttributeError (Bool × (Nat → Int32)) :=
  match JSONObj with
  | [] => .error .nullItem
  | item :: next => do
      match ← findAttribute key isArray (subitems isArray item next) with
      | none => return (false, valueint)
      | some (_, subitem) => return (true, ← copyElements subitem nValues 0 valueint)

/-- From a slot on the output has the integers of the items, up to a bound. All other
slots are as before. -/
structure CopiedFrom
    (index bound : Nat)
    (items : List CJSON)
    (before after : Nat → Int32) : Prop where
  copied : ∀ slot item, index ≤ slot → slot < bound → items[slot]? = some item →
    after slot = item.valueint
  kept : ∀ slot, slot < index ∨ min items.length bound ≤ slot →
    after slot = before slot

/-- One more item is copied in front of the others. -/
theorem CopiedFrom.update
    {index bound : Nat}
    {items : List CJSON}
    {element : CJSON}
    {before after : Nat → Int32}
    (there : items[index]? = some element)
    (below : index < bound)
    (copied : CopiedFrom (index + 1) bound items
      (Function.update before index element.valueint) after) :
    CopiedFrom index bound items before after := by
  have inRange : index < items.length := (List.getElem?_eq_some_iff.mp there).1
  refine ⟨fun slot item from_ upTo isItem => ?_, fun slot outside => ?_⟩
  · rcases Nat.eq_or_lt_of_le from_ with rfl | later
    · cases there.symm.trans isItem
      rw [copied.kept index (.inl (Nat.lt_succ_self index)), Function.update_self]
    · exact copied.copied slot item later upTo isItem
  · have other : slot ≠ index := by omega
    rw [copied.kept slot (outside.imp_left Nat.lt_succ_of_lt),
      Function.update_of_ne other]

/-- The loop copies from its index on and dereferences no null item. -/
theorem copyElements_copies
    (subitem : CJSON)
    (nValues index : UInt32)
    (valueint : Nat → Int32) :
    ∃ written, copyElements subitem nValues index valueint = .ok written ∧
      CopiedFrom index.toNat nValues.toNat subitem.child valueint written := by
  induction index, valueint using copyElements.induct subitem nValues with
  | case1 index valueint goesOn nothing =>
      rw [walkTo_eq_drop, Int.toNat_natCast, List.drop_eq_nil_iff] at nothing
      rw [getArraySize_eq] at goesOn
      omega
  | case2 index valueint goesOn element next walked inductionHypothesis =>
      obtain ⟨written, copies, copied⟩ := inductionHypothesis
      have below := UInt32.lt_iff_toNat_lt.mp goesOn.2
      have successor : (index + 1).toNat = index.toNat + 1 := by
        have bounded := nValues.toNat_lt
        rw [UInt32.toNat_add, UInt32.toNat_one]
        omega
      refine ⟨written, ?_, ?_⟩
      · rw [copyElements, if_pos goesOn, walked]
        exact copies
      · rw [walkTo_eq_drop, Int.toNat_natCast] at walked
        rw [successor] at copied
        apply copied.update _ below
        rw [← List.head?_drop, walked, List.head?_cons]
  | case3 index valueint done =>
      refine ⟨valueint, by rw [copyElements, if_neg done], fun slot item from_ upTo isItem => ?_,
        fun _ _ => rfl⟩
      have inRange := (List.getElem?_eq_some_iff.mp isItem).1
      rw [getArraySize_eq, UInt32.lt_iff_toNat_lt] at done
      omega

/-- The first array with exactly the key. -/
def firstArray (object : CJSON) (key : Bytes) : Option CJSON :=
  object.child.find? fun member => decide (IsAttribute key isArray member)

/-- On an object with named members the getter of integer arrays answers whether there
is an array with the key. Then it writes the integers of the elements of the first one
to the slots of the output, as many as there are elements and slots, and else none. -/
theorem getAttributeValueIntArray_copies
    {object : CJSON}
    (named : object.NamedObject)
    (next : List CJSON)
    (key : Bytes)
    (valueint : Nat → Int32)
    (nValues : UInt32) :
    ∃ found written,
      getAttributeValueIntArray (object :: next) key valueint nValues =
          .ok (found, written) ∧
        (found = true ↔
          ∃ member ∈ object.child, member.name = some key ∧ member.type = .array) ∧
        (found = false → written = valueint) ∧
        ∀ array ∈ object.firstArray key,
          CopiedFrom 0 nValues.toNat array.child valueint written := by
  have starts : subitems isArray object next = object.child :=
    subitems_of_object named.isObject rfl next
  simp only [getAttributeValueIntArray, firstArray, starts]
  cases first : object.child.find? fun member => decide (IsAttribute key isArray member) with
  | none =>
      have none : ∀ member ∈ object.child, ¬ IsAttribute key isArray member := by
        simpa using List.find?_eq_none.mp first
      refine ⟨false, valueint, ?_, ?_, fun _ => rfl, fun array isFirst => ?_⟩
      · rw [findAttribute_of_none named.named none]
        rfl
      · apply iff_of_false Bool.false_ne_true
        rintro ⟨member, isMember, hasName, type⟩
        exact none member isMember ⟨hasName, decide_eq_true type⟩
      · cases isFirst
  | some array =>
      obtain ⟨wanted, before, after, split, none⟩ :=
        List.find?_eq_some_iff_append.mp first
      have wanted := of_decide_eq_true wanted
      obtain ⟨written, copies, copied⟩ := copyElements_copies array nValues 0 valueint
      refine ⟨true, written, ?_, ?_, fun isFalse => Bool.noConfusion isFalse, ?_⟩
      · have beforeNamed : ∀ member ∈ before, member.string.isSome :=
          fun member isBefore => named.named member
            (split ▸ List.mem_append_left _ isBefore)
        rw [split, findAttribute_of_first beforeNamed (by simpa using none) wanted]
        simp only [Outcome.ok_bind, copies]
        rfl
      · refine iff_of_true rfl ⟨array, ?_, wanted.1, of_decide_eq_true wanted.2⟩
        exact split ▸ List.mem_append_right _ List.mem_cons_self
      · rintro other ⟨⟩
        exact copied

/-- An array of two elements, of which one is asked for. -/
theorem getAttributeValueIntArray_copies_one :
    ∃ found written,
      getAttributeValueIntArray
            [createObject.addItemToObject (keyOf ['a'])
              (some { newItem with
                type := .array, child := [createNumber 7, createNumber 8] })]
            (ascii ['a']) (fun _ => 0) 1 =
          .ok (found, written) ∧
        (found = true ↔
          ∃ member ∈
              (createObject.addItemToObject (keyOf ['a'])
                (some { newItem with
                  type := .array, child := [createNumber 7, createNumber 8] })).child,
            member.name = some (ascii ['a']) ∧ member.type = .array) ∧
        (found = false → written = fun _ => 0) ∧
        ∀ array ∈
            (createObject.addItemToObject (keyOf ['a'])
              (some { newItem with
                type := .array, child := [createNumber 7, createNumber 8] })).firstArray
              (ascii ['a']),
          CopiedFrom 0 (UInt32.toNat 1) array.child (fun _ => 0) written :=
  getAttributeValueIntArray_copies (by decide) [] (ascii ['a']) (fun _ => 0) 1

end CJSON
end ProtobufSandbox
