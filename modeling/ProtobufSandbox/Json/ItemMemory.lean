import ProtobufSandbox.Foundation.Heap
import ProtobufSandbox.Json.Tree

/-!
# The memory of items

The items of a tree with the blocks that they and their strings occupy,
`cJSON_Delete` and `cJSON_Duplicate`. A request for a block may be refused at any
time. An item that is a reference shares its string and its children with another
item, so that they are not its own.
-/

namespace ProtobufSandbox

/-- A string and the block that holds it. -/
abbrev StoredString := Block × CString

/-- `struct cJSON` in memory, with the chain of its children as a list. -/
structure StoredItem where
  block : Block
  child : List StoredItem
  type : CJSONType
  /-- `type & cJSON_IsReference`. -/
  isReference : Bool
  valuestring : Option StoredString
  valueint : Int32
  valuedouble : Rat
  string : Option StoredString

/-- The error of a use of memory that is not allocated. -/
inductive LedgerFault where
  | freedBlock
  deriving DecidableEq

/-- The blocks in a list, as a specification names them. Their contents are the
fields of the items. -/
def ledger (blocks : List Block) : List (Block × Unit) :=
  blocks.map fun block => (block, ())

theorem ledger_append (left right : List Block) :
    ledger (left ++ right) = ledger left ++ ledger right :=
  List.map_append

/-- `cJSON_free` of a string, if the pointer to it is not null. -/
def freeString (freed : ε) : Option StoredString → Heap.Action Unit ε Unit
  | none => pure ()
  | some string => Heap.free freed string.1

/-- `cJSON_strdup`. -/
def copyStringIn
    (granted : Nat → Bool)
    (string : CString) : Heap.Action Unit ε (Option StoredString) := do
  match ← Heap.malloc granted () with
  | none => return none
  | some block => return some (block, string)

/-- The block of a string that may be missing. -/
def stringBlocks (string : Option StoredString) : List Block :=
  (string.map Prod.fst).toList

namespace StoredItem

variable {ε : Type}

/-- An item of which every field is zero. -/
def blank (block : Block) : StoredItem where
  block := block
  child := []
  type := .false
  isReference := false
  valuestring := none
  valueint := 0
  valuedouble := 0
  string := none

/-- `cJSON_New_Item`. -/
def newItemIn (granted : Nat → Bool) : Heap.Action Unit ε (Option StoredItem) :=
  return (← Heap.malloc granted ()).map blank

mutual

/-- The item without its blocks. -/
def erase : StoredItem → CJSON
  | ⟨_, child, type, _, valuestring, valueint, valuedouble, string⟩ =>
      ⟨eraseAll child, type, valuestring.map Prod.snd, valueint, valuedouble,
        string.map Prod.snd⟩

/-- A chain of items without their blocks. -/
def eraseAll : List StoredItem → List CJSON
  | [] => []
  | item :: items => item.erase :: eraseAll items

end

mutual

/-- The blocks that are a tree's own. -/
def blocks : StoredItem → List Block
  | ⟨block, child, _, isReference, valuestring, _, _, string⟩ =>
      (if isReference then [] else blocksOf child ++ stringBlocks valuestring) ++
        (stringBlocks string ++ [block])

/-- The own blocks of the trees in a chain. -/
def blocksOf : List StoredItem → List Block
  | [] => []
  | item :: items => item.blocks ++ blocksOf items

end

mutual

/-- Neither the item nor an item under it is a reference. -/
def isOwn : StoredItem → Bool
  | ⟨_, child, _, isReference, _, _, _, _⟩ => !isReference && areOwn child

/-- No item of the trees in a chain is a reference. -/
def areOwn : List StoredItem → Bool
  | [] => true
  | item :: items => item.isOwn && areOwn items

end

mutual

/-- A turn of the loop of `cJSON_Delete`. -/
def deleteOne (freed : ε) : StoredItem → Heap.Action Unit ε Unit
  | ⟨block, child, _, isReference, valuestring, _, _, string⟩ => do
      if isReference then pure () else
        deleteAll freed child
        freeString freed valuestring
      freeString freed string
      Heap.free freed block

/-- `cJSON_Delete` of an item and those behind it in its chain. -/
def deleteAll (freed : ε) : List StoredItem → Heap.Action Unit ε Unit
  | [] => pure ()
  | item :: items => do
      item.deleteOne freed
      deleteAll freed items

end

/-- `cJSON_Delete` of an item that is in no chain. -/
def delete (freed : ε) (item : StoredItem) : Heap.Action Unit ε Unit :=
  deleteAll freed [item]

/-- The copy of a string of an item: null if there is none, or nothing if the
request for it is refused. -/
def duplicateString
    (granted : Nat → Bool) :
    Option StoredString → Heap.Action Unit ε (Option (Option StoredString))
  | none => return some none
  | some string => return (← copyStringIn granted string.2).map some

mutual

/-- `cJSON_Duplicate`. -/
def duplicate (freed : ε) (granted : Nat → Bool) :
    StoredItem → Bool → Heap.Action Unit ε (Option StoredItem)
  | ⟨_, child, type, _, valuestring, valueint, valuedouble, string⟩, recurse => do
      match ← newItemIn granted with
      | none => return none
      | some newitem =>
          let newitem := { newitem with
            type := type
            isReference := false
            valueint := valueint
            valuedouble := valuedouble }
          match ← duplicateString granted valuestring with
          | none =>
              newitem.delete freed
              return none
          | some valuestring =>
              let newitem := { newitem with valuestring := valuestring }
              match ← duplicateString granted string with
              | none =>
                  newitem.delete freed
                  return none
              | some string =>
                  let newitem := { newitem with string := string }
                  if recurse then
                    let (copies, complete) ← duplicateAll freed granted child
                    let newitem := { newitem with child := copies }
                    if complete then return some newitem
                    else
                      newitem.delete freed
                      return none
                  else return some newitem

/-- The loop of `cJSON_Duplicate` over the children: the copies that are linked
when it ends, and whether it comes to the end. -/
def duplicateAll (freed : ε) (granted : Nat → Bool) :
    List StoredItem → Heap.Action Unit ε (List StoredItem × Bool)
  | [] => return ([], true)
  | item :: items => do
      match ← duplicate freed granted item true with
      | none => return ([], false)
      | some newchild =>
          let (copies, complete) ← duplicateAll freed granted items
          return (newchild :: copies, complete)

end

/-! ## Items and their parts -/

theorem sizeOf_lt_of_mem_child
    {item child : StoredItem}
    (present : child ∈ item.child) :
    sizeOf child < sizeOf item := by
  have smaller := List.sizeOf_lt_of_mem present
  cases item
  simp only [StoredItem.mk.sizeOf_spec] at smaller ⊢
  omega

/-- A property that passes from the children of an item to the item holds of every
item. -/
theorem induction
    {motive : StoredItem → Prop}
    (node : ∀ item : StoredItem, (∀ child ∈ item.child, motive child) → motive item)
    (item : StoredItem) :
    motive item := by
  apply node
  intro child present
  exact induction node child
termination_by sizeOf item
decreasing_by
  exact sizeOf_lt_of_mem_child present

theorem eraseAll_eq_map (items : List StoredItem) :
    eraseAll items = items.map erase := by
  induction items with
  | nil => rfl
  | cons item items inductionHypothesis =>
      rw [eraseAll, inductionHypothesis, List.map_cons]

/-- The own blocks of an item that is no reference. -/
theorem blocks_of_own
    {item : StoredItem}
    (own : item.isReference = false) :
    item.blocks =
      blocksOf item.child ++ stringBlocks item.valuestring ++
        (stringBlocks item.string ++ [item.block]) := by
  obtain ⟨block, child, type, isReference, valuestring, valueint, valuedouble,
    string⟩ := item
  subst own
  rw [blocks]
  rfl

/-! ## Deletion -/

section Specifications

open Heap (Spec)

variable {allowed : ε → Prop} {freed : ε} {others : List (Block × Unit)}
variable {granted : Nat → Bool}

theorem freeString_spec (string : Option StoredString) :
    Spec allowed (ledger (stringBlocks string) ++ others) (freeString freed string)
      fun _ owned => owned = others := by
  cases string with
  | none => exact Spec.pure rfl
  | some string => exact Heap.free_head_spec

/-- Deleting an item frees its own blocks and nothing else. -/
def Deletes (freed : ε) (item : StoredItem) : Prop :=
  ∀ allowed others, Spec allowed (ledger item.blocks ++ others) (item.deleteOne freed)
    fun _ owned => owned = others

theorem deleteAll_spec
    {items : List StoredItem}
    (deletes : ∀ item ∈ items, Deletes freed item) :
    Spec allowed (ledger (blocksOf items) ++ others) (deleteAll freed items)
      fun _ owned => owned = others := by
  induction items with
  | nil => exact Spec.pure rfl
  | cons item items inductionHypothesis =>
      obtain ⟨itemDeletes, deletes⟩ := List.forall_mem_cons.mp deletes
      rw [blocksOf, ledger_append, List.append_assoc, deleteAll]
      apply (itemDeletes allowed _).bind
      rintro - owned rfl
      exact inductionHypothesis deletes

theorem deleteOne_spec (freed : ε) (item : StoredItem) : Deletes freed item := by
  induction item using StoredItem.induction with
  | node item inductionHypothesis =>
      intro allowed others
      obtain ⟨block, child, type, isReference, valuestring, valueint, valuedouble,
        string⟩ := item
      have strings : Spec allowed (ledger (stringBlocks string ++ [block]) ++ others)
          (do freeString freed string; Heap.free freed block)
          fun _ owned => owned = others := by
        rw [ledger_append, List.append_assoc]
        apply (freeString_spec string).bind
        rintro - owned rfl
        exact Heap.free_head_spec
      have children : ∀ item ∈ child, Deletes freed item := inductionHypothesis
      rw [blocks, deleteOne]
      cases isReference with
      | true =>
          rw [if_pos rfl, if_pos rfl, List.nil_append]
          exact strings
      | false =>
          rw [if_neg Bool.false_ne_true, if_neg Bool.false_ne_true, ledger_append,
            ledger_append, List.append_assoc, List.append_assoc]
          apply (deleteAll_spec children).bind
          rintro - owned rfl
          apply (freeString_spec valuestring).bind
          rintro - owned rfl
          exact strings

theorem delete_spec (item : StoredItem) :
    Spec allowed (ledger item.blocks ++ others) (item.delete freed)
      fun _ owned => owned = others := by
  have spec : Spec allowed (ledger (blocksOf [item]) ++ others) (item.delete freed)
      fun _ owned => owned = others :=
    deleteAll_spec (List.forall_mem_singleton.mpr (deleteOne_spec freed item))
  rw [blocksOf, blocksOf, List.append_nil] at spec
  exact spec

/-! ## Duplication -/

theorem newItemIn_spec :
    Spec allowed [] (newItemIn granted)
      fun result owned =>
        (result = none ∧ owned = [] ∧ ∃ request, granted request = false) ∨
          ∃ block, result = some (blank block) ∧ owned = ledger [block] := by
  apply Heap.malloc_spec.bind
  rintro result owned (⟨rfl, rfl, refused⟩ | ⟨block, rfl, rfl⟩)
  · exact Spec.pure (.inl ⟨rfl, rfl, refused⟩)
  · exact Spec.pure (.inr ⟨block, rfl, rfl⟩)

theorem duplicateString_spec (string : Option StoredString) :
    Spec allowed [] (duplicateString granted string)
      fun result owned =>
        (result = none ∧ owned = [] ∧ ∃ request, granted request = false) ∨
          ∃ copy, result = some copy ∧ owned = ledger (stringBlocks copy) ∧
            copy.map Prod.snd = string.map Prod.snd := by
  cases string with
  | none => exact Spec.pure (.inr ⟨none, rfl, rfl, rfl⟩)
  | some string =>
      have copied : Spec allowed [] (copyStringIn granted string.2)
          fun result owned =>
            (result = none ∧ owned = [] ∧ ∃ request, granted request = false) ∨
              ∃ block, result = some (block, string.2) ∧ owned = ledger [block] := by
        apply Heap.malloc_spec.bind
        rintro result owned (⟨rfl, rfl, refused⟩ | ⟨block, rfl, rfl⟩)
        · exact Spec.pure (.inl ⟨rfl, rfl, refused⟩)
        · exact Spec.pure (.inr ⟨block, rfl, rfl⟩)
      apply copied.bind
      rintro result owned (⟨rfl, rfl, refused⟩ | ⟨block, rfl, rfl⟩)
      · exact Spec.pure (.inl ⟨rfl, rfl, refused⟩)
      · exact Spec.pure (.inr ⟨some (block, string.2), rfl, rfl, rfl⟩)

/-- What `cJSON_Duplicate` returns: a tree of its own that says the same, or null if
a request was refused. -/
def Copies
    (granted : Nat → Bool)
    (source : CJSON)
    (result : Option StoredItem)
    (owned : List (Block × Unit)) : Prop :=
  (result = none ∧ owned = [] ∧ ∃ request, granted request = false) ∨
    ∃ copy, result = some copy ∧ owned.Perm (ledger copy.blocks) ∧
      copy.erase = source ∧ copy.isOwn = true

/-- What is copied is deleted when a request is refused. -/
theorem copies_of_refused
    {newitem : StoredItem}
    {owned : List (Block × Unit)}
    (same : owned.Perm (ledger newitem.blocks))
    (refused : ∃ request, granted request = false)
    (source : CJSON) :
    Spec allowed owned (do newitem.delete freed; return none)
      (Copies granted source) := by
  apply Spec.perm _ same
  rw [← List.append_nil (ledger newitem.blocks)]
  apply (delete_spec newitem).bind
  rintro - owned rfl
  exact Spec.pure (.inl ⟨rfl, rfl, refused⟩)

theorem duplicateAll_spec
    {items : List StoredItem}
    (copies : ∀ item ∈ items, Spec allowed [] (duplicate freed granted item true)
      (Copies granted item.erase)) :
    Spec allowed [] (duplicateAll freed granted items)
      fun result owned => owned.Perm (ledger (blocksOf result.1)) ∧
        areOwn result.1 = true ∧
        ((result.2 = true ∧ eraseAll result.1 = eraseAll items) ∨
          (result.2 = false ∧ ∃ request, granted request = false)) := by
  induction items with
  | nil => exact Spec.pure ⟨.refl _, rfl, .inl ⟨rfl, rfl⟩⟩
  | cons item items inductionHypothesis =>
      obtain ⟨itemCopies, copies⟩ := List.forall_mem_cons.mp copies
      rw [duplicateAll]
      apply itemCopies.bind
      rintro result owned (⟨rfl, rfl, refused⟩ | ⟨copy, rfl, same, erased, own⟩)
      · exact Spec.pure ⟨.refl _, rfl, .inr ⟨rfl, refused⟩⟩
      · apply (inductionHypothesis copies).bind_new
        rintro ⟨rest, complete⟩ owned' ⟨restSame, restOwn, restCopied⟩
        refine Spec.pure ⟨?_, ?_, ?_⟩
        · rw [blocksOf, ledger_append]
          exact List.perm_append_comm.trans (same.append restSame)
        · rw [areOwn, own, restOwn]
          rfl
        · rw [eraseAll, eraseAll, erased]
          exact restCopied.imp_left fun whole => ⟨whole.1, by rw [whole.2]⟩

/-- The copy of an item, with or without what is under it. -/
def copyOf (item : CJSON) (recurse : Bool) : CJSON :=
  { item with child := if recurse then item.child else [] }

theorem copyOf_true (item : CJSON) : copyOf item true = item := by
  cases item
  rfl

/-- The blocks of an item are those of its parts. -/
theorem perm_blocks_of_parts
    {item : StoredItem}
    {owned : List (Block × Unit)}
    (own : item.isReference = false)
    (same : owned.Perm (ledger (blocksOf item.child) ++ (ledger (stringBlocks item.string) ++
      (ledger (stringBlocks item.valuestring) ++ ledger [item.block])))) :
    owned.Perm (ledger item.blocks) := by
  refine same.trans ?_
  rw [blocks_of_own own, List.append_assoc, ledger_append, ledger_append, ledger_append]
  refine List.Perm.append_left _ ?_
  rw [← List.append_assoc, ← List.append_assoc]
  exact List.perm_append_comm.append_right _

theorem duplicate_spec (item : StoredItem) (recurse : Bool) :
    Spec allowed [] (duplicate freed granted item recurse)
      (Copies granted (copyOf item.erase recurse)) := by
  induction item using StoredItem.induction generalizing recurse with
  | node item inductionHypothesis =>
      have children : ∀ child ∈ item.child,
          Spec allowed [] (duplicate freed granted child true)
            (Copies granted child.erase) := by
        intro child present
        rw [← copyOf_true child.erase]
        exact inductionHypothesis child present true
      obtain ⟨block, child, type, isReference, valuestring, valueint, valuedouble,
        string⟩ := item
      rw [duplicate]
      apply newItemIn_spec.bind
      rintro result owned (⟨rfl, rfl, refused⟩ | ⟨newBlock, rfl, rfl⟩)
      · exact Spec.pure (.inl ⟨rfl, rfl, refused⟩)
      apply (duplicateString_spec valuestring).bind_new
      rintro result owned (⟨rfl, rfl, refused⟩ | ⟨text, rfl, rfl, sameText⟩)
      · refine copies_of_refused ?_ refused _
        exact perm_blocks_of_parts rfl (.refl _)
      apply (duplicateString_spec string).bind_new
      rintro result owned (⟨rfl, rfl, refused⟩ | ⟨name, rfl, rfl, sameName⟩)
      · refine copies_of_refused ?_ refused _
        exact perm_blocks_of_parts rfl (.refl _)
      apply Spec.ite
      · intro recursive
        subst recursive
        apply (duplicateAll_spec children).bind_new
        rintro ⟨copies, complete⟩ owned ⟨same, own, copied⟩
        rcases copied with ⟨rfl, whole⟩ | ⟨rfl, refused⟩
        · refine Spec.pure (.inr ⟨_, rfl, ?_, ?_, ?_⟩)
          · exact perm_blocks_of_parts rfl (same.append_right _)
          · dsimp only at whole
            rw [erase, erase, copyOf_true, sameText, sameName, whole]
          · rw [isOwn, own]
            rfl
        · refine copies_of_refused ?_ refused _
          exact perm_blocks_of_parts rfl (same.append_right _)
      · intro flat
        rw [Bool.not_eq_true] at flat
        subst flat
        refine Spec.pure (.inr ⟨_, rfl, ?_, ?_, rfl⟩)
        · exact perm_blocks_of_parts rfl (.refl _)
        · rw [erase, erase, copyOf, sameText, sameName]
          rfl

end Specifications

/-- A tree that a heap has gained is deleted, whatever references are in it, and the
heap is as it was. -/
theorem delete_run
    {item : StoredItem}
    {heap after : Heap Unit}
    (gains : Heap.Gains (ledger item.blocks) heap after) :
    ∃ final, item.delete LedgerFault.freedBlock after = .ok ((), final) ∧
      final.contents = heap.contents := by
  have spec : Heap.Spec (fun _ => False) (ledger item.blocks ++ [])
      (item.delete LedgerFault.freedBlock) fun _ owned => owned = [] :=
    delete_spec item
  rw [List.append_nil] at spec
  have met := spec.run gains
  cases run : item.delete LedgerFault.freedBlock after with
  | error fault =>
      rw [run] at met
      exact met.elim
  | ok out =>
      rw [run] at met
      obtain ⟨owned, rfl, gone⟩ := met
      exact ⟨out.2, rfl, gone.contents_of_nil⟩

/-- A copy is returned, or null, and then some request is refused. -/
theorem duplicate_returns
    (granted : Nat → Bool)
    (item : StoredItem)
    (recurse : Bool)
    (heap : Heap Unit) :
    ∃ result after,
      duplicate LedgerFault.freedBlock granted item recurse heap = .ok (result, after) ∧
      ((result = none ∧ after.contents = heap.contents ∧
          ∃ request, granted request = false) ∨
        ∃ copy, result = some copy ∧ copy.erase = copyOf item.erase recurse ∧
          copy.isOwn = true ∧ Heap.Gains (ledger copy.blocks) heap after ∧
          ∃ final, copy.delete LedgerFault.freedBlock after = .ok ((), final) ∧
            final.contents = heap.contents) := by
  have spec : Heap.Spec (fun _ => False) []
      (duplicate LedgerFault.freedBlock granted item recurse)
      (Copies granted (copyOf item.erase recurse)) :=
    duplicate_spec item recurse
  have met := spec.run (Heap.gains_nil heap)
  cases run : duplicate LedgerFault.freedBlock granted item recurse heap with
  | error fault =>
      rw [run] at met
      exact met.elim
  | ok out =>
      rw [run] at met
      obtain ⟨owned, copies, gains⟩ := met
      refine ⟨out.1, out.2, rfl, ?_⟩
      rcases copies with ⟨null, rfl, refused⟩ | ⟨copy, result, same, erased, own⟩
      · exact .inl ⟨null, gains.contents_of_nil, refused⟩
      · exact .inr ⟨copy, result, erased, own, gains.perm same,
          delete_run (gains.perm same)⟩

/-! ## Requests -/

section Requests

open Heap (OwnAnswers ownAnswers_pure ownAnswers_free ownAnswers_malloc)

variable {freed : ε}

theorem ownAnswers_freeString (string : Option StoredString) :
    OwnAnswers fun _ => freeString freed string :=
  match string with
  | none => ownAnswers_pure ()
  | some string => ownAnswers_free freed string.1

theorem ownAnswers_deleteAll
    {items : List StoredItem}
    (own : ∀ item ∈ items, OwnAnswers fun _ => item.deleteOne freed) :
    OwnAnswers fun _ => deleteAll freed items := by
  induction items with
  | nil => exact ownAnswers_pure ()
  | cons item items inductionHypothesis =>
      obtain ⟨ownItem, ownItems⟩ := List.forall_mem_cons.mp own
      exact ownItem.bind fun _ => inductionHypothesis ownItems

theorem ownAnswers_deleteOne (item : StoredItem) :
    OwnAnswers fun _ => item.deleteOne freed := by
  induction item using StoredItem.induction with
  | node item inductionHypothesis =>
      obtain ⟨block, child, type, isReference, valuestring, valueint, valuedouble, string⟩ :=
        item
      have behind : OwnAnswers fun _ : Nat → Bool =>
          freeString freed string >>= fun _ => Heap.free freed block :=
        (ownAnswers_freeString string).bind fun _ => ownAnswers_free freed block
      refine .ite ((ownAnswers_pure ()).bind fun _ => behind) ?_
      exact (ownAnswers_deleteAll inductionHypothesis).bind fun _ =>
        (ownAnswers_freeString valuestring).bind fun _ => behind

theorem ownAnswers_delete (item : StoredItem) :
    OwnAnswers fun _ => item.delete freed :=
  ownAnswers_deleteAll fun item _ => ownAnswers_deleteOne item

theorem ownAnswers_newItemIn :
    OwnAnswers fun granted => (newItemIn granted : Heap.Action Unit ε _) :=
  (ownAnswers_malloc ()).bind fun _ => ownAnswers_pure _

theorem ownAnswers_duplicateString (string : Option StoredString) :
    OwnAnswers fun granted => (duplicateString granted string : Heap.Action Unit ε _) := by
  cases string with
  | none => exact ownAnswers_pure _
  | some string =>
      have copied : OwnAnswers fun granted =>
          (copyStringIn granted string.2 : Heap.Action Unit ε _) :=
        (ownAnswers_malloc ()).bind fun
          | none => ownAnswers_pure _
          | some _ => ownAnswers_pure _
      exact copied.bind fun _ => ownAnswers_pure _

theorem ownAnswers_duplicateAll
    {items : List StoredItem}
    (own : ∀ item ∈ items, OwnAnswers fun granted => duplicate freed granted item true) :
    OwnAnswers fun granted => duplicateAll freed granted items := by
  induction items with
  | nil => exact ownAnswers_pure _
  | cons item items inductionHypothesis =>
      obtain ⟨ownItem, ownItems⟩ := List.forall_mem_cons.mp own
      exact ownItem.bind fun
        | none => ownAnswers_pure _
        | some _ => (inductionHypothesis ownItems).bind fun _ => ownAnswers_pure _

theorem ownAnswers_duplicate (item : StoredItem) (recurse : Bool) :
    OwnAnswers fun granted => duplicate freed granted item recurse := by
  induction item using StoredItem.induction generalizing recurse with
  | node item inductionHypothesis =>
      obtain ⟨block, child, type, isReference, valuestring, valueint, valuedouble, string⟩ :=
        item
      have null (newitem : StoredItem) : OwnAnswers fun _ : Nat → Bool =>
          newitem.delete freed >>= fun _ => pure (none : Option StoredItem) :=
        (ownAnswers_delete newitem).bind fun _ => ownAnswers_pure _
      refine ownAnswers_newItemIn.bind fun
        | none => ownAnswers_pure _
        | some newitem => (ownAnswers_duplicateString valuestring).bind fun
          | none => null _
          | some valuestring => (ownAnswers_duplicateString string).bind fun
            | none => null _
            | some string => .ite ?_ (ownAnswers_pure _)
      exact (ownAnswers_duplicateAll fun child present =>
        inductionHypothesis child present true).bind fun _ => .ite (ownAnswers_pure _) (null _)

end Requests

/-- Whatever requests for memory are refused, `cJSON_Duplicate` returns a tree in new
blocks of its own that says the same, and which is deleted without a trace; or it
returns null, only if one of its requests was refused, and leaves no block behind. -/
theorem duplicate_run
    (granted : Nat → Bool)
    (item : StoredItem)
    (recurse : Bool)
    (heap : Heap Unit) :
    ∃ result after,
      duplicate LedgerFault.freedBlock granted item recurse heap = .ok (result, after) ∧
      ((result = none ∧ after.contents = heap.contents ∧
          Heap.Refused granted heap after) ∨
        ∃ copy, result = some copy ∧ copy.erase = copyOf item.erase recurse ∧
          copy.isOwn = true ∧ Heap.Gains (ledger copy.blocks) heap after ∧
          ∃ final, copy.delete LedgerFault.freedBlock after = .ok ((), final) ∧
            final.contents = heap.contents) := by
  obtain ⟨result, after, ran, -⟩ := duplicate_returns granted item recurse heap
  refine ⟨result, after, ran, ?_⟩
  -- The run is the same if all requests but its own are granted.
  have ranWithin := (ownAnswers_duplicate item recurse).run_within ran
  obtain ⟨_, _, ranAgain, given⟩ :=
    duplicate_returns (Heap.answersWithin granted heap after) item recurse heap
  cases ranWithin.symm.trans ranAgain
  exact given.imp_left fun null => ⟨null.1, null.2.1, Heap.refused_of_within null.2.2⟩

end StoredItem
end ProtobufSandbox
