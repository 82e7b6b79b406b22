import Mathlib.Algebra.Order.BigOperators.Group.List
import ProtobufSandbox.Json.File
import ProtobufSandbox.Json.PrintRequests

/-!
# The printers use their own memory only

Every block that `print_value` and the functions it calls allocate is large enough
for what is written into it, it is freed once, and none but the returned text is
left. This holds for every pattern of refused requests.
-/

namespace ProtobufSandbox

open Heap (Spec)

namespace CJSON

variable {allowed : MemoryFault → Prop} {others : List (Block × Cells)}
variable {cells : Cells} {text : Bytes} {size ptr : Nat} {out : Block}

/-! ## Arrays -/

/-- The block of an entry holds its text. -/
def ReadsAs (entry : Block × Cells) (text : Bytes) : Prop :=
  stringIn entry.2 = .ok text

theorem freeIf_spec :
    Spec allowed ((out, cells) :: others) (freeIf (some out))
      fun _ owned => owned = others :=
  Heap.free_head_spec

/-- The second of the owned blocks is freed. -/
theorem freeIf_second_spec
    {entry : Block × Cells}
    {first : Block × Cells} :
    Spec allowed (first :: entry :: others) (freeIf (some entry.1))
      fun _ owned => owned = first :: others :=
  freeIf_spec.perm (List.Perm.swap _ _ _)

/-- All blocks to which there is a pointer are freed. -/
theorem forM_freeIf_spec
    (results : List (Option Block))
    {owned : List (Block × Cells)}
    (pointed : results.filterMap id = owned.map Prod.fst) :
    Spec allowed (owned ++ others) (results.forM freeIf)
      fun _ owned => owned = others := by
  induction results generalizing owned with
  | nil =>
      rw [List.filterMap_nil, eq_comm, List.map_eq_nil_iff] at pointed
      subst pointed
      exact Spec.pure rfl
  | cons result results inductionHypothesis =>
      cases result with
      | none => exact inductionHypothesis pointed
      | some block =>
          obtain ⟨entry, rest, rfl, rfl, restPointed⟩ :=
            List.map_eq_cons_iff.mp pointed.symm
          apply freeIf_spec.bind
          rintro - owned rfl
          exact inductionHypothesis restPointed.symm

theorem filterMap_map_some (name : α → β) (items : List α) :
    (items.map fun item => some (name item)).filterMap id = items.map name := by
  rw [List.filterMap_map]
  exact congrFun List.filterMap_eq_map items

/-- What a composed text takes is its entries, and a separator for each at most. -/
theorem length_compose_le
    (separator : Bytes)
    (texts : List Bytes) :
    (compose separator texts).length ≤
      (texts.map fun text => text.length + separator.length).sum := by
  cases texts with
  | nil => exact Nat.zero_le _
  | cons text texts =>
      rw [compose_cons, List.length_append, List.length_flatMap, List.map_cons,
        List.sum_cons]
      simp only [List.length_append]
      have same : (texts.map fun text => separator.length + text.length) =
          texts.map fun text => text.length + separator.length :=
        List.map_congr_left fun text _ => Nat.add_comm _ _
      rw [same]
      omega

/-- The room that `print_array` allows for the entries. -/
def elementsRoom (fmt : Bool) (texts : List Bytes) : Nat :=
  (texts.map fun text => text.length + 2 + if fmt then 1 else 0).sum

theorem composeElements_spec
    (fmt : Bool)
    {entries : List (Block × Cells)}
    {texts : List Bytes}
    (read : List.Forall₂ ReadsAs entries texts)
    (written : Written text size cells)
    (here : ptr = text.length)
    (fits : text.length + elementsRoom fmt texts ≤ size) :
    Spec allowed ((out, cells) :: (entries ++ others))
      (composeElements fmt out ptr (entries.map fun entry => some entry.1))
      fun result owned =>
        let composed := text ++ compose (comma :: if fmt then [space] else []) texts
        result = composed.length ∧ Wrote out composed size others owned := by
  induction read generalizing text ptr cells with
  | nil =>
      rw [compose, List.append_nil]
      exact Spec.pure ⟨here, cells, rfl, written⟩
  | @cons entry string entries texts entryRead read inductionHypothesis =>
      simp only [elementsRoom, List.map_cons, List.sum_cons] at fits
      rw [List.map_cons, composeElements]
      apply (copyInto_spec written here entryRead (by omega)).bind
      rintro ptr owned ⟨here, cells', rfl, written'⟩
      cases read with
      | nil =>
          rw [List.map_nil, if_pos rfl, compose]
          apply freeIf_second_spec.bind
          rintro - owned rfl
          exact Spec.pure ⟨here, cells', rfl, written'⟩
      | @cons next nextString entries texts nextRead read =>
          rw [List.map_cons, if_neg (List.cons_ne_nil _ _), compose,
            ← List.append_assoc, ← List.append_assoc]
          have separated : (comma :: if fmt then [space] else []).length =
              1 + if fmt then 1 else 0 := by
            cases fmt <;> rfl
          have room : (text ++ string).length +
              ((comma :: if fmt then [space] else []) ++ [0]).length ≤ size := by
            simp only [List.length_append, separated, List.length_singleton]
            omega
          apply (write_spec written' here room).bind
          rintro - owned ⟨cells'', rfl, written''⟩
          apply freeIf_second_spec.bind
          rintro - owned rfl
          rw [← List.append_assoc] at written''
          apply inductionHypothesis written''.of_append
          · rw [List.length_append, here]
          · simp only [List.length_append, separated, elementsRoom, List.map_cons,
              List.sum_cons] at fits ⊢
            omega

/-- What the loop of `print_array` leaves: the entries printed so far, and their
lengths if none failed. -/
def PrintedElements
    (granted : Nat → Bool)
    (fmt : Bool)
    (texts : List Bytes)
    (len : Nat)
    (printed : List (Option Block) × Nat × Bool)
    (owned : List (Block × Cells)) : Prop :=
  (printed.2.2 = true ∧ printed.1.filterMap id = owned.map Prod.fst ∧
      ∃ request, granted request = false) ∨
    (printed.2.2 = false ∧ printed.1 = owned.map (fun entry => some entry.1) ∧
      List.Forall₂ ReadsAs owned texts ∧ printed.2.1 = len + elementsRoom fmt texts)

theorem length_composeElements_le (fmt : Bool) (texts : List Bytes) :
    (compose (comma :: if fmt then [space] else []) texts).length ≤
      elementsRoom fmt texts := by
  refine (length_compose_le _ texts).trans (List.sum_le_sum fun text _ => ?_)
  cases fmt <;> simp

theorem finishArray_spec
    (granted : Nat → Bool)
    {fmt : Bool}
    {entries : Block}
    {texts : List Bytes}
    {printed : List (Option Block) × Nat × Bool}
    {owned : List (Block × Cells)}
    (isPrinted : PrintedElements granted fmt texts 5 printed owned)
    (nonzero : (0 : UInt8) ∉ printArray texts fmt) :
    Spec allowed (owned ++ [(entries, cells)])
      (finishArray granted fmt entries printed.1 printed.2.1 printed.2.2)
      (GivesText granted (printArray texts fmt)) := by
  have failed (pointed : printed.1.filterMap id = owned.map Prod.fst)
      (refused : ∃ request, granted request = false) :
      Spec allowed (owned ++ [(entries, cells)])
        (do printed.1.forM freeIf; Heap.free .freedBlock entries; return none)
        (GivesText granted (printArray texts fmt)) := by
    apply (forM_freeIf_spec printed.1 pointed).bind
    rintro - owned rfl
    apply Heap.free_spec.bind
    rintro - owned rfl
    exact Spec.pure (.inl ⟨rfl, rfl, refused⟩)
  unfold finishArray
  rcases isPrinted with ⟨isFailed, pointed, refused⟩ | ⟨isFailed, results, read, len⟩
  · rw [isFailed, if_pos rfl]
    exact failed pointed refused
  · rw [isFailed, if_neg Bool.false_ne_true]
    apply Heap.malloc_spec.bind_new
    rintro result own (⟨rfl, rfl, refused⟩ | ⟨out, rfl, rfl⟩)
    · refine failed ?_ refused
      rw [results]
      exact filterMap_map_some Prod.fst owned
    · have composed := length_composeElements_le fmt texts
      rw [len, results]
      apply (write_spec (written_nil _) rfl (by simp; omega)).bind
      rintro - own ⟨cells', rfl, written⟩
      rw [List.nil_append, ← List.singleton_append] at written
      apply (composeElements_spec fmt read written.of_append rfl
        (by rw [List.length_singleton]; omega)).bind
      rintro ptr own ⟨here, cells'', rfl, written'⟩
      apply (Heap.free_head_spec.perm (List.Perm.swap _ _ _)).bind
      rintro - own rfl
      have room : ([openBracket] ++
            compose (comma :: if fmt then [space] else []) texts).length +
          ([closeBracket, 0] : Bytes).length ≤ 5 + elementsRoom fmt texts := by
        simp only [List.length_append, List.length_cons, List.length_nil]
        omega
      apply (write_spec written' here room).bind
      rintro - own ⟨last, rfl, written''⟩
      have whole : Written (printArray texts fmt ++ [0])
          (5 + elementsRoom fmt texts) last := by
        simpa [printArray] using written''
      exact Spec.pure (.inr ⟨out, last, rfl, rfl, whole.stringIn_eq nonzero⟩)

/-! ## Objects -/

/-- The blocks of a name and an entry hold their texts. -/
def ReadsAsMember
    (member : (Block × Cells) × (Block × Cells))
    (texts : Bytes × Bytes) : Prop :=
  ReadsAs member.1 texts.1 ∧ ReadsAs member.2 texts.2

/-- The blocks of the names and entries. -/
def memberBlocks
    (members : List ((Block × Cells) × (Block × Cells))) : List (Block × Cells) :=
  members.flatMap fun member => [member.1, member.2]

/-- The pointers to the blocks of the names and entries. -/
def memberPointers
    (members : List ((Block × Cells) × (Block × Cells))) :
    List (Option Block × Option Block) :=
  members.map fun member => (some member.1.1, some member.2.1)

/-- The room that `print_object` allows for a member. -/
def memberRoom (depth : Nat) (fmt : Bool) (texts : Bytes × Bytes) : Nat :=
  texts.2.length + texts.1.length + 2 + if fmt then 2 + depth else 0

/-- The room that `print_object` allows for the members. -/
def membersRoom (depth : Nat) (fmt : Bool) (texts : List (Bytes × Bytes)) : Nat :=
  (texts.map (memberRoom depth fmt)).sum

theorem membersRoom_cons
    (depth : Nat)
    (fmt : Bool)
    (name entry : Bytes)
    (texts : List (Bytes × Bytes)) :
    membersRoom depth fmt ((name, entry) :: texts) =
      name.length + entry.length + 2 + (if fmt then depth else 0) +
        (2 * if fmt then 1 else 0) + membersRoom depth fmt texts := by
  rw [membersRoom, List.map_cons, List.sum_cons, memberRoom, membersRoom]
  cases fmt
  · simp only [Bool.false_eq_true, if_false]
    omega
  · simp only [if_true]
    omega

theorem composeMembers_spec
    (depth : Nat)
    (fmt : Bool)
    {members : List ((Block × Cells) × (Block × Cells))}
    {texts : List (Bytes × Bytes)}
    (read : List.Forall₂ ReadsAsMember members texts)
    (nonempty : texts ≠ [])
    (written : Written text size cells)
    (here : ptr = text.length)
    (fits : text.length + membersRoom depth fmt texts < size) :
    Spec allowed ((out, cells) :: (memberBlocks members ++ others))
      (composeMembers depth fmt out ptr (memberPointers members))
      fun result owned =>
        let lineEnd := if fmt then [newline] else []
        let composed := text ++
          (compose (comma :: lineEnd) (texts.map (printMember depth fmt)) ++ lineEnd)
        result = composed.length ∧ Wrote out composed size others owned := by
  induction read generalizing text ptr cells with
  | nil => exact absurd rfl nonempty
  | @cons member strings members texts memberRead read inductionHypothesis =>
      obtain ⟨name, entry⟩ := member
      obtain ⟨nameText, entryText⟩ := strings
      obtain ⟨nameRead, entryRead⟩ :
        ReadsAs name nameText ∧ ReadsAs entry entryText := memberRead
      rw [membersRoom_cons] at fits
      have indented : (if fmt then List.replicate depth tab else []).length =
          if fmt then depth else 0 := by
        cases fmt <;> simp
      have spaced : (colon :: if fmt then [tab] else []).length =
          1 + if fmt then 1 else 0 := by
        cases fmt <;> rfl
      obtain ⟨lineEnd, lineEnd_eq⟩ : ∃ lineEnd, lineEnd =
          (if memberPointers members = [] then [] else [comma]) ++
            if fmt then [newline] else [] := ⟨_, rfl⟩
      have ended : (lineEnd ++ [0]).length ≤ 2 + if fmt then 1 else 0 := by
        rw [lineEnd_eq]
        cases fmt <;> split <;> simp
      show Spec allowed ((out, cells) :: name :: entry :: (memberBlocks members ++ others))
        (composeMembers depth fmt out ptr
          ((some name.1, some entry.1) :: memberPointers members)) _
      rw [composeMembers, ← lineEnd_eq]
      apply (write_spec written here (by rw [indented]; omega)).bind
      rintro - owned ⟨cells₁, rfl, written₁⟩
      apply (copyInto_spec written₁ (by rw [List.length_append, here]) nameRead
        (by rw [List.length_append, indented]; omega)).bind
      rintro ptr₁ owned ⟨here₁, cells₂, rfl, written₂⟩
      apply (write_spec written₂ here₁
        (by simp only [List.length_append, indented, spaced]; omega)).bind
      rintro - owned ⟨cells₃, rfl, written₃⟩
      refine Spec.perm ?_ (List.Perm.cons _ (List.Perm.swap entry name _))
      apply (copyInto_spec written₃ (by rw [List.length_append, here₁]) entryRead
        (by simp only [List.length_append, indented, spaced]; omega)).bind
      rintro ptr₂ owned ⟨here₂, cells₄, rfl, written₄⟩
      have line : text ++ (if fmt then List.replicate depth tab else []) ++ nameText ++
          (colon :: if fmt then [tab] else []) ++ entryText =
            text ++ printMember depth fmt (nameText, entryText) := by
        simp [printMember]
      have width : (text ++ printMember depth fmt (nameText, entryText)).length =
          text.length + (if fmt then depth else 0) + nameText.length + 1 +
            (if fmt then 1 else 0) + entryText.length := by
        rw [← line]
        simp only [List.length_append, indented, spaced]
        omega
      rw [line] at here₂ written₄
      apply (write_spec written₄ here₂ (by omega)).bind
      rintro - owned ⟨cells₅, rfl, written₅⟩
      apply (freeIf_second_spec.perm
        (List.Perm.cons _ (List.Perm.swap name entry _))).bind
      rintro - owned rfl
      apply freeIf_second_spec.bind
      rintro - owned rfl
      rw [← List.append_assoc] at written₅
      have written₆ := written₅.of_append
      have here₃ : ptr₂ + lineEnd.length =
          (text ++ printMember depth fmt (nameText, entryText) ++ lineEnd).length := by
        rw [here₂, @List.length_append _ _ lineEnd]
      cases read with
      | nil =>
          obtain rfl : lineEnd = if fmt then [newline] else [] := lineEnd_eq
          rw [List.append_assoc] at here₃ written₆
          exact Spec.pure ⟨here₃, cells₅, rfl, written₆⟩
      | @cons nextMember nextStrings members texts nextRead read =>
          have fits' : (text ++ printMember depth fmt (nameText, entryText) ++
                lineEnd).length + membersRoom depth fmt (nextStrings :: texts) < size := by
            rw [@List.length_append _ _ lineEnd, width]
            rw [List.length_append, List.length_singleton] at ended
            omega
          refine (inductionHypothesis (List.cons_ne_nil _ _) written₆ here₃ fits').mono
            fun result owned reached => ?_
          have same : text ++ printMember depth fmt (nameText, entryText) ++ lineEnd =
              text ++ (printMember depth fmt (nameText, entryText) ++
                (comma :: if fmt then [newline] else [])) := by
            have further : memberPointers (nextMember :: members) ≠ [] :=
              List.cons_ne_nil _ _
            rw [lineEnd_eq, if_neg further, List.append_assoc]
            rfl
          simpa only [same, List.map_cons, compose, List.append_assoc] using reached

/-- What the loop of `print_object` leaves: the names and entries printed, and
their lengths if none failed. -/
def PrintedMembers
    (granted : Nat → Bool)
    (depth : Nat)
    (fmt : Bool)
    (texts : List (Bytes × Bytes))
    (len : Nat)
    (printed : List (Option Block × Option Block) × Nat × Bool)
    (owned : List (Block × Cells)) : Prop :=
  (printed.2.2 = true ∧ (pointers printed.1).filterMap id = owned.map Prod.fst ∧
      ∃ request, granted request = false) ∨
    (printed.2.2 = false ∧ ∃ members,
      printed.1 = memberPointers members ∧ owned = memberBlocks members ∧
      List.Forall₂ ReadsAsMember members texts ∧
      printed.2.1 = len + membersRoom depth fmt texts)

theorem filterMap_memberPointers
    (members : List ((Block × Cells) × (Block × Cells))) :
    (pointers (memberPointers members)).filterMap id =
      (memberBlocks members).map Prod.fst := by
  induction members with
  | nil => rfl
  | cons member members inductionHypothesis =>
      exact congrArg (member.1.1 :: member.2.1 :: ·) inductionHypothesis

theorem length_composeMembers_le
    (depth : Nat)
    (fmt : Bool)
    (texts : List (Bytes × Bytes)) :
    (compose (comma :: if fmt then [newline] else [])
      (texts.map (printMember depth fmt))).length ≤ membersRoom depth fmt texts := by
  refine (length_compose_le _ _).trans ?_
  rw [List.map_map]
  apply List.sum_le_sum
  rintro ⟨name, entry⟩ -
  cases fmt
  · simp [printMember, memberRoom]
    omega
  · simp [printMember, memberRoom]
    omega

theorem finishObject_spec
    (granted : Nat → Bool)
    {depth : Nat}
    {fmt : Bool}
    {entries names : Block}
    {entriesCells namesCells : Cells}
    {texts : List (Bytes × Bytes)}
    {printed : List (Option Block × Option Block) × Nat × Bool}
    {owned : List (Block × Cells)}
    (isPrinted : PrintedMembers granted (depth + 1) fmt texts
      (7 + if fmt then depth + 1 else 0) printed owned)
    (nonempty : texts ≠ [])
    (nonzero : (0 : UInt8) ∉ printObject texts depth fmt) :
    Spec allowed (owned ++ [(names, namesCells), (entries, entriesCells)])
      (finishObject granted (depth + 1) fmt entries names printed.1 printed.2.1
        printed.2.2)
      (GivesText granted (printObject texts depth fmt)) := by
  have failed (pointed : (pointers printed.1).filterMap id = owned.map Prod.fst)
      (refused : ∃ request, granted request = false) :
      Spec allowed (owned ++ [(names, namesCells), (entries, entriesCells)])
        (do
          (pointers printed.1).forM freeIf
          Heap.free .freedBlock names
          Heap.free .freedBlock entries
          return none)
        (GivesText granted (printObject texts depth fmt)) := by
    apply (forM_freeIf_spec (pointers printed.1) pointed).bind
    rintro - owned rfl
    apply Heap.free_head_spec.bind
    rintro - owned rfl
    apply Heap.free_spec.bind
    rintro - owned rfl
    exact Spec.pure (.inl ⟨rfl, rfl, refused⟩)
  unfold finishObject
  rcases isPrinted with
    ⟨isFailed, pointed, refused⟩ | ⟨isFailed, members, results, rfl, read, len⟩
  · rw [isFailed, if_pos rfl]
    exact failed pointed refused
  · rw [isFailed, if_neg Bool.false_ne_true]
    apply Heap.malloc_spec.bind_new
    rintro result own (⟨rfl, rfl, refused⟩ | ⟨out, rfl, rfl⟩)
    · refine failed ?_ refused
      rw [results, filterMap_memberPointers]
    · have composed := length_composeMembers_le (depth + 1) fmt texts
      have lineEnd : (if fmt then [newline] else [] : Bytes).length =
          if fmt then 1 else 0 := by
        cases fmt <;> rfl
      have atMostOne : (if fmt then 1 else 0) ≤ 1 := by
        cases fmt <;> decide
      have indented : (if fmt then List.replicate depth tab else [] : Bytes).length +
          (if fmt then 1 else 0) = if fmt then depth + 1 else 0 := by
        cases fmt <;> simp
      rw [len, results]
      apply (write_spec (written_nil _) rfl (by
        simp only [List.length_append, List.length_cons, lineEnd, List.length_nil]
        omega)).bind
      rintro - own ⟨cells₁, rfl, written₁⟩
      rw [List.nil_append] at written₁
      apply (composeMembers_spec (depth + 1) fmt read nonempty written₁.of_append
        (by simp only [List.length_cons, lineEnd]; omega)
        (by simp only [List.length_cons, lineEnd]; omega)).bind
      rintro ptr own ⟨here, cells₂, rfl, written₂⟩
      apply (Heap.free_head_spec.perm (List.Perm.swap _ _ _)).bind
      rintro - own rfl
      apply (Heap.free_head_spec.perm (List.Perm.swap _ _ _)).bind
      rintro - own rfl
      have room : ((openBrace :: if fmt then [newline] else []) ++
            (compose (comma :: if fmt then [newline] else [])
              (texts.map (printMember (depth + 1) fmt)) ++
                if fmt then [newline] else [])).length +
          ((if fmt then List.replicate (depth + 1 - 1) tab else []) ++
            [closeBrace, 0]).length ≤
          7 + (if fmt then depth + 1 else 0) + membersRoom (depth + 1) fmt texts := by
        simp only [List.length_append, List.length_cons, lineEnd,
          Nat.add_sub_cancel, List.length_nil]
        omega
      apply (write_spec written₂ here room).bind
      rintro - own ⟨cells₃, rfl, written₃⟩
      have whole : Written (printObject texts depth fmt ++ [0])
          (7 + (if fmt then depth + 1 else 0) + membersRoom (depth + 1) fmt texts)
          cells₃ := by
        simpa [printObject, nonempty] using written₃
      exact Spec.pure (.inr ⟨out, cells₃, rfl, rfl, whole.stringIn_eq nonzero⟩)

/-! ## Values -/

/-- The printer gives the text of the item, at any depth. -/
def GivesValue (granted : Nat → Bool) (item : CJSON) : Prop :=
  ∀ allowed depth fmt, Spec allowed [] (printValueIn granted item depth fmt)
    (GivesText granted (item.printValue depth fmt))

theorem PrintedElements.cons
    {granted : Nat → Bool}
    {fmt : Bool}
    {texts : List Bytes}
    {len : Nat}
    {printed : List (Option Block) × Nat × Bool}
    {owned : List (Block × Cells)}
    (isPrinted : PrintedElements granted fmt texts
      (len + text.length + 2 + if fmt then 1 else 0) printed owned)
    (read : stringIn cells = .ok text) :
    PrintedElements granted fmt (text :: texts) len
      (some out :: printed.1, printed.2.1, printed.2.2) ((out, cells) :: owned) := by
  rcases isPrinted with ⟨failed, pointed, refused⟩ | ⟨passed, results, reads, total⟩
  · exact .inl ⟨failed, congrArg (out :: ·) pointed, refused⟩
  · refine .inr ⟨passed, congrArg (some out :: ·) results, .cons read reads, ?_⟩
    rw [total, elementsRoom, elementsRoom, List.map_cons, List.sum_cons]
    omega

theorem printElements_spec
    {granted : Nat → Bool}
    {items : List CJSON}
    (gives : ∀ item ∈ items, GivesValue granted item)
    (depth : Nat)
    (fmt : Bool)
    (len : Nat) :
    Spec allowed [] (printElements granted items depth fmt len)
      (PrintedElements granted fmt
        (items.map fun item => item.printValue depth fmt) len) := by
  induction items generalizing len with
  | nil =>
      rw [printElements]
      exact Spec.pure (.inr ⟨rfl, rfl, .nil, rfl⟩)
  | cons item items inductionHypothesis =>
      obtain ⟨itemGives, gives⟩ := List.forall_mem_cons.mp gives
      rw [printElements]
      apply (itemGives allowed depth fmt).bind
      rintro result owned (⟨rfl, rfl, refused⟩ | ⟨ret, cells, rfl, rfl, read⟩)
      · refine Spec.pure (.inl ⟨rfl, ?_, refused⟩)
        rw [List.filterMap_cons_none rfl, List.filterMap_replicate_of_none rfl]
        rfl
      · apply (readString_spec read).bind
        rintro text owned ⟨rfl, rfl⟩
        apply (inductionHypothesis gives _).bind_new
        intro printed own isPrinted
        apply (Spec.pure (isPrinted.cons read)).perm
        exact List.perm_append_singleton _ _

/-- One more name and entry are printed, or one of them is refused. -/
theorem PrintedMembers.cons
    {granted : Nat → Bool}
    {depth : Nat}
    {fmt : Bool}
    {texts : List (Bytes × Bytes)}
    {len : Nat}
    {printed : List (Option Block × Option Block) × Nat × Bool}
    {owned : List (Block × Cells)}
    {name entry : Block × Cells}
    {nameText entryText : Bytes}
    (isPrinted : PrintedMembers granted depth fmt texts
      (len + entryText.length + nameText.length + 2 + if fmt then 2 + depth else 0)
      printed owned)
    (nameRead : ReadsAs name nameText)
    (entryRead : ReadsAs entry entryText) :
    PrintedMembers granted depth fmt ((nameText, entryText) :: texts) len
      ((some name.1, some entry.1) :: printed.1, printed.2.1, printed.2.2)
      (name :: entry :: owned) := by
  rcases isPrinted with
    ⟨failed, pointed, refused⟩ | ⟨passed, members, results, rfl, reads, total⟩
  · exact .inl ⟨failed, congrArg (name.1 :: entry.1 :: ·) pointed, refused⟩
  · refine .inr ⟨passed, (name, entry) :: members,
      congrArg ((some name.1, some entry.1) :: ·) results, rfl,
      .cons ⟨nameRead, entryRead⟩ reads, ?_⟩
    simp only [total, membersRoom, memberRoom, List.map_cons, List.sum_cons]
    omega

/-- The blocks that the loop has pointers to, whether it failed or not. -/
theorem PrintedMembers.pointed
    {granted : Nat → Bool}
    {depth : Nat}
    {fmt : Bool}
    {texts : List (Bytes × Bytes)}
    {len : Nat}
    {printed : List (Option Block × Option Block) × Nat × Bool}
    {owned : List (Block × Cells)}
    (isPrinted : PrintedMembers granted depth fmt texts len printed owned) :
    (pointers printed.1).filterMap id = owned.map Prod.fst := by
  rcases isPrinted with ⟨-, pointed, -⟩ | ⟨-, members, results, rfl, -, -⟩
  · exact pointed
  · rw [results, filterMap_memberPointers]

theorem printMembers_spec
    {granted : Nat → Bool}
    {items : List CJSON}
    (gives : ∀ item ∈ items, GivesValue granted item)
    (depth : Nat)
    (fmt : Bool)
    (len : Nat) :
    Spec allowed [] (printMembers granted items depth fmt len)
      (PrintedMembers granted depth fmt
        (items.map fun item =>
          (printStringPtr item.string, item.printValue depth fmt)) len) := by
  induction items generalizing len with
  | nil =>
      rw [printMembers]
      exact Spec.pure (.inr ⟨rfl, [], rfl, rfl, .nil, rfl⟩)
  | cons item items inductionHypothesis =>
      obtain ⟨itemGives, gives⟩ := List.forall_mem_cons.mp gives
      rw [printMembers]
      apply (printStringPtrIn_spec granted item.string).bind
      intro str strOwned strGiven
      apply (itemGives allowed depth fmt).bind_new
      intro ret retOwned retGiven
      have refusal
          (refused : ∃ request, granted request = false)
          (pointed : (pointers [(str, ret)]).filterMap id =
            (strOwned ++ retOwned).map Prod.fst) :
          Spec allowed (retOwned ++ strOwned)
            (do
              let printed ← printMembers granted items depth fmt len
              return ((str, ret) :: printed.1, printed.2.1, true))
            (PrintedMembers granted depth fmt
              ((item :: items).map fun item =>
                (printStringPtr item.string, item.printValue depth fmt)) len) := by
        refine (inductionHypothesis gives len).bind_new fun printed own isPrinted => ?_
        refine (Spec.pure (.inl ⟨rfl, ?_, refused⟩)).perm
          (List.perm_append_comm.trans (List.perm_append_comm.append_right own))
        rw [List.map_append, ← pointed, ← isPrinted.pointed, ← List.filterMap_append]
        rfl
      rcases strGiven with ⟨rfl, rfl, refused⟩ | ⟨name, nameCells, rfl, rfl, nameRead⟩
      · rw [if_neg (by simp)]
        refine refusal refused ?_
        rcases retGiven with ⟨rfl, rfl, -⟩ | ⟨entry, entryCells, rfl, rfl, -⟩ <;> rfl
      · rcases retGiven with ⟨rfl, rfl, refused⟩ | ⟨entry, entryCells, rfl, rfl, entryRead⟩
        · rw [if_neg (by simp)]
          exact refusal refused rfl
        · rw [if_pos ⟨rfl, rfl⟩]
          have entryReads :
              ReadsAs (entry, entryCells) (item.printValue depth fmt) := entryRead
          have nameReads :
              ReadsAs (name, nameCells) (printStringPtr item.string) := nameRead
          apply (readString_spec entryRead).bind
          rintro entryText owned ⟨rfl, rfl⟩
          refine Spec.perm ?_ (List.Perm.swap (name, nameCells) (entry, entryCells) [])
          apply (readString_spec nameRead).bind
          rintro nameText owned ⟨rfl, rfl⟩
          apply (inductionHypothesis gives _).bind_new
          intro printed own isPrinted
          apply (Spec.pure (isPrinted.cons nameReads entryReads)).perm
          exact List.perm_append_comm

theorem mallocPointers_spec (granted : Nat → Bool) (numentries : Nat) :
    Spec allowed [] (mallocPointers granted numentries)
      fun result owned =>
        (result = none ∧ owned = [] ∧ ∃ request, granted request = false) ∨
          ∃ block cells, result = some block ∧ owned = [(block, cells)] := by
  apply Heap.malloc_spec.bind
  rintro result owned (⟨rfl, rfl, refused⟩ | ⟨block, rfl, rfl⟩)
  · exact Spec.pure (.inl ⟨rfl, rfl, refused⟩)
  · apply (write_spec (written_nil _) rfl (by simp)).bind
    rintro - owned ⟨cells, rfl, -⟩
    exact Spec.pure (.inr ⟨block, cells, rfl, rfl⟩)

theorem printArrayIn_spec
    {granted : Nat → Bool}
    {item : CJSON}
    (array : item.type = .array)
    (gives : ∀ element ∈ item.child, GivesValue granted element) :
    GivesValue granted item := by
  intro allowed depth fmt
  have nonzero := zero_not_mem_printValue item depth fmt
  rw [printValue_array depth fmt array] at nonzero ⊢
  obtain ⟨child, type, valuestring, valueint, valuedouble, string⟩ := item
  subst array
  rw [printValueIn]
  apply Spec.ite
  · intro none
    rw [List.length_eq_zero_iff] at none
    subst none
    exact newString_spec granted (by decide) (by decide)
  · intro some
    apply (mallocPointers_spec granted child.length).bind
    rintro result owned (⟨rfl, rfl, refused⟩ | ⟨entries, cells, rfl, rfl⟩)
    · exact Spec.pure (.inl ⟨rfl, rfl, refused⟩)
    · apply (printElements_spec gives (depth + 1) fmt 5).bind_new
      intro printed own isPrinted
      exact finishArray_spec granted isPrinted nonzero

theorem printObjectIn_spec
    {granted : Nat → Bool}
    {item : CJSON}
    (object : item.type = .object)
    (gives : ∀ member ∈ item.child, GivesValue granted member) :
    GivesValue granted item := by
  intro allowed depth fmt
  have nonzero := zero_not_mem_printValue item depth fmt
  rw [printValue_object depth fmt object] at nonzero ⊢
  obtain ⟨child, type, valuestring, valueint, valuedouble, string⟩ := item
  subst object
  rw [printValueIn]
  apply Spec.ite
  · intro none
    rw [List.length_eq_zero_iff] at none
    subst none
    have text : printObject [] depth fmt =
        openBrace :: ((if fmt then newline :: List.replicate (depth - 1) tab
          else []) ++ [closeBrace]) := by
      cases fmt <;> rfl
    rw [List.map_nil, text] at nonzero ⊢
    refine newString_spec granted nonzero ?_
    cases fmt
    · exact Nat.lt_succ_self 2
    · simp only [if_true, List.length_cons, List.length_append,
        List.length_replicate, List.length_nil]
      omega
  · intro some
    apply Heap.malloc_spec.bind
    rintro result owned (⟨rfl, rfl, refused⟩ | ⟨entries, rfl, rfl⟩)
    · exact Spec.pure (.inl ⟨rfl, rfl, refused⟩)
    apply Heap.malloc_spec.bind_new
    rintro result owned (⟨rfl, rfl, refused⟩ | ⟨names, rfl, rfl⟩)
    · apply Heap.free_spec.bind
      rintro - owned rfl
      exact Spec.pure (.inl ⟨rfl, rfl, refused⟩)
    refine Spec.perm ?_ (List.Perm.swap _ _ [])
    apply (write_spec (written_nil _) rfl (by simp)).bind
    rintro - owned ⟨entriesCells, rfl, -⟩
    refine Spec.perm ?_ (List.Perm.swap _ _ [])
    apply (write_spec (written_nil _) rfl (by simp)).bind
    rintro - owned ⟨namesCells, rfl, -⟩
    apply (printMembers_spec gives (depth + 1) fmt _).bind_new
    intro printed own isPrinted
    refine finishObject_spec granted isPrinted ?_ nonzero
    rw [ne_eq, List.map_eq_nil_iff]
    rintro rfl
    exact some rfl

/-- Every number of the tree is in the range of a `double`. -/
def HoldsDoubles (item : CJSON) : Prop :=
  ∀ node ∈ item.nodes, node.type = .number → InDoubleRange node.valuedouble

instance (item : CJSON) : Decidable item.HoldsDoubles :=
  inferInstanceAs (Decidable
    (∀ node ∈ item.nodes, node.type = .number → InDoubleRange node.valuedouble))

theorem HoldsDoubles.of_mem_child
    {item child : CJSON}
    (holds : item.HoldsDoubles)
    (container : item.IsContainer)
    (present : child ∈ item.child) :
    child.HoldsDoubles :=
  fun node below => holds node (mem_nodes_of_mem_child container present below)

theorem printValueIn_spec
    (granted : Nat → Bool)
    (item : CJSON)
    (holds : item.HoldsDoubles) :
    GivesValue granted item := by
  induction item using CJSON.induction with
  | node item inductionHypothesis =>
      have children (container : item.IsContainer) :
          ∀ child ∈ item.child, GivesValue granted child := by
        intro child present
        exact inductionHypothesis child present (holds.of_mem_child container present)
      have inRange := holds item item.mem_nodes_self
      cases type : item.type with
      | array => exact printArrayIn_spec type (children (.inl type))
      | object => exact printObjectIn_spec type (children (.inr type))
      | _ =>
          intro allowed depth fmt
          have nonzero := zero_not_mem_printValue item depth fmt
          obtain ⟨child, itemType, valuestring, valueint, valuedouble, string⟩ := item
          subst type
          rw [printValue, printValueWith] at nonzero ⊢
          rw [printValueIn]
          first
            | exact strdup_spec granted nonzero
            | exact printNumberIn_spec granted _ (inRange rfl)
            | exact printStringPtrIn_spec granted valuestring

/-- A new block is returned, or null, and then some request is refused. -/
theorem printValueIn_returns
    (granted : Nat → Bool)
    (item : CJSON)
    (holds : item.HoldsDoubles)
    (depth : Nat)
    (fmt : Bool)
    (heap : Heap Cells) :
    ∃ result after, printValueIn granted item depth fmt heap = .ok (result, after) ∧
      ((result = none ∧ after.contents = heap.contents ∧
          ∃ request, granted request = false) ∨
        ∃ out cells, result = some out ∧ heap.contents out = none ∧
          after.contents = Function.update heap.contents out (some cells) ∧
          stringIn cells = .ok (item.printValue depth fmt)) := by
  have met := (printValueIn_spec granted item holds (fun _ => False) depth fmt).run
    (Heap.gains_nil heap)
  cases run : printValueIn granted item depth fmt heap with
  | error fault =>
      rw [run] at met
      exact met.elim
  | ok out =>
      rw [run] at met
      obtain ⟨owned, given, gains⟩ := met
      refine ⟨out.1, out.2, rfl, ?_⟩
      rcases given with ⟨null, rfl, refused⟩ | ⟨block, cells, result, rfl, read⟩
      · exact .inl ⟨null, gains.contents_of_nil, refused⟩
      · exact .inr ⟨block, cells, result, gains.unused _ List.mem_cons_self,
          gains.contents_of_singleton, read⟩

/-- Null is returned only if one of the requests of the printers is refused: the run is the
same if all others are granted. -/
theorem refused_of_printValueIn
    {granted : Nat → Bool}
    {item : CJSON}
    {depth : Nat}
    {fmt : Bool}
    {heap after : Heap Cells}
    (holds : item.HoldsDoubles)
    (ran : printValueIn granted item depth fmt heap = .ok (none, after)) :
    Heap.Refused granted heap after := by
  have ranWithin := (ownAnswers_printValueIn item depth fmt).run_within ran
  obtain ⟨_, _, ranAgain, given⟩ :=
    printValueIn_returns (Heap.answersWithin granted heap after) item holds depth fmt heap
  cases ranWithin.symm.trans ranAgain
  rcases given with ⟨-, -, refused⟩ | ⟨out, cells, result, -⟩
  · exact Heap.refused_of_within refused
  · cases result

/-- Whatever requests for memory are refused, the printers use no memory that is not
theirs and leave none behind: they return a new block with the text of the tree,
and null only if one of their requests was refused. -/
theorem printValueIn_run
    (granted : Nat → Bool)
    (item : CJSON)
    (holds : item.HoldsDoubles)
    (depth : Nat)
    (fmt : Bool)
    (heap : Heap Cells) :
    ∃ result after, printValueIn granted item depth fmt heap = .ok (result, after) ∧
      ((result = none ∧ after.contents = heap.contents ∧
          Heap.Refused granted heap after) ∨
        ∃ out cells, result = some out ∧ heap.contents out = none ∧
          after.contents = Function.update heap.contents out (some cells) ∧
          stringIn cells = .ok (item.printValue depth fmt)) := by
  obtain ⟨result, after, ran, given⟩ := printValueIn_returns granted item holds depth fmt heap
  refine ⟨result, after, ran, given.imp_left ?_⟩
  rintro ⟨rfl, kept, -⟩
  exact ⟨rfl, kept, refused_of_printValueIn holds ran⟩

/-- The second request for memory is refused while a tree is printed. -/
theorem printValueIn_run_refused :
    ∃ result after,
      printValueIn (fun request => decide (request ≠ 1)) FileSystem.sample 0 true
          Heap.empty = .ok (result, after) ∧
      ((result = none ∧ after.contents = (Heap.empty : Heap Cells).contents ∧
          Heap.Refused (fun request => decide (request ≠ 1)) Heap.empty after) ∨
        ∃ out cells, result = some out ∧
          (Heap.empty : Heap Cells).contents out = none ∧
          after.contents =
            Function.update (Heap.empty : Heap Cells).contents out (some cells) ∧
          stringIn cells = .ok (FileSystem.sample.printValue 0 true)) :=
  printValueIn_run _ _ (by decide +kernel) 0 true Heap.empty

end CJSON

/-! ## Saving a tree -/

namespace FileSystem

open CJSON

variable {Files : Type}

/-- The rest of `writeJSONToFile`, once the tree is printed. -/
def saveTextIn
    (system : FileSystem Files)
    (files : Files)
    (filename : Bytes)
    (JSONBuf : Option Block) : MemoryAction (Bool × Files) := do
  let text ← readString JSONBuf
  if text.length = 0 then return (false, files)
  else
    let name := CString.ofBuffer filename
    match system.create files name with
    | none => return (false, files)
    | some opened =>
        let (bad, written) := system.write opened name text
        freeIf JSONBuf
        return (!bad, written)

/-- `writeJSONToFile`, with the memory that it uses. -/
def writeJSONToFileIn
    (granted : Nat → Bool)
    (system : FileSystem Files)
    (files : Files)
    (JSONObject : CJSON)
    (filename : Bytes) : MemoryAction (Bool × Files) := do
  saveTextIn system files filename (← JSONObject.printValueIn granted 0 true)

/-- The text that is saved gets into the file. -/
def Opens
    (system : FileSystem Files)
    (files : Files)
    (item : CJSON)
    (filename : Bytes) : Prop :=
  item.print ≠ [] ∧ system.create files (CString.ofBuffer filename) ≠ none

/-- The text of a tree is saved, and its block is freed if the text gets into the file. -/
theorem saveTextIn_spec
    {allowed : MemoryFault → Prop}
    (system : FileSystem Files)
    (files : Files)
    (item : CJSON)
    (filename : Bytes)
    {out : Block}
    {cells : Cells}
    (read : stringIn cells = .ok item.print) :
    Spec allowed [(out, cells)] (saveTextIn system files filename (some out))
      fun result owned => result = system.writeJSONToFile files item filename ∧
        ((system.Opens files item filename ∧ owned = []) ∨
          (¬ system.Opens files item filename ∧ owned = [(out, cells)])) := by
  have saved : cString item.print = item.print :=
    cString_eq_self (zero_not_mem_printValue item 0 true)
  unfold saveTextIn Opens
  apply (readString_spec read).bind
  rintro text owned ⟨rfl, rfl⟩
  dsimp only
  split
  · next empty =>
      have noText : item.print = [] := List.length_eq_zero_iff.mp empty
      have result : system.writeJSONToFile files item filename = (false, files) := by
        rw [FileSystem.writeJSONToFile, saved, noText]
        rfl
      exact Spec.pure
        ⟨result.symm, .inr ⟨fun opens => opens.1 noText, rfl⟩⟩
  · next some =>
      have someText : item.print ≠ [] :=
        fun none => some (List.length_eq_zero_iff.mpr none)
      split
      · next closed =>
          have result :
              system.writeJSONToFile files item filename = (false, files) := by
            simp [FileSystem.writeJSONToFile, saved, someText, closed]
          exact Spec.pure
            ⟨result.symm, .inr ⟨fun opens => opens.2 closed, rfl⟩⟩
      · next opened isOpened =>
          apply freeIf_spec.bind
          rintro - owned rfl
          have result : system.writeJSONToFile files item filename =
              (!(system.write opened (CString.ofBuffer filename) item.print).1,
                (system.write opened (CString.ofBuffer filename) item.print).2) := by
            simp [FileSystem.writeJSONToFile, saved, someText, isOpened]
          refine Spec.pure ⟨result.symm, .inl ⟨⟨someText, ?_⟩, rfl⟩⟩
          rw [isOpened]
          exact Option.some_ne_none opened

/-- Saving a tree dereferences a null pointer if the printer returns one, since a request of
its was refused. Otherwise it frees the printed text if this gets into the file; if not, the text
stays behind. -/
theorem writeJSONToFileIn_run
    (granted : Nat → Bool)
    (system : FileSystem Files)
    (files : Files)
    {item : CJSON}
    (holds : item.HoldsDoubles)
    (filename : Bytes)
    (heap : Heap Cells) :
    (writeJSONToFileIn granted system files item filename heap = .error .nullPointer ∧
        ∃ after, printValueIn granted item 0 true heap = .ok (none, after) ∧
          Heap.Refused granted heap after) ∨
      ∃ after, writeJSONToFileIn granted system files item filename heap =
          .ok (system.writeJSONToFile files item filename, after) ∧
        ((system.Opens files item filename ∧ after.contents = heap.contents) ∨
          (¬ system.Opens files item filename ∧ ∃ out cells,
            heap.contents out = none ∧ stringIn cells = .ok item.print ∧
            after.contents = Function.update heap.contents out (some cells))) := by
  obtain ⟨result, middle, ran, given⟩ := printValueIn_returns granted item holds 0 true heap
  have runs : writeJSONToFileIn granted system files item filename heap =
      saveTextIn system files filename result middle := by
    simp only [writeJSONToFileIn, bind, StateT.bind, ran]
    rfl
  rcases given with ⟨rfl, -, -⟩ | ⟨out, cells, rfl, new, contents, read⟩
  · exact .inl ⟨runs, middle, ran, refused_of_printValueIn holds ran⟩
  · have gains : Heap.Gains [(out, cells)] heap middle :=
      Heap.gains_singleton new contents
    have met := (@saveTextIn_spec _ (fun _ => False) system files item filename _ _ read).run
      gains
    rw [runs]
    cases run : saveTextIn system files filename (some out) middle with
    | error fault =>
        rw [run] at met
        exact met.elim
    | ok saved =>
        rw [run] at met
        obtain ⟨owned, ⟨same, left⟩, gainsAfter⟩ := met
        refine .inr ⟨saved.2, by rw [← same], ?_⟩
        rcases left with ⟨opens, rfl⟩ | ⟨closed, rfl⟩
        · exact .inl ⟨opens, gainsAfter.contents_of_nil⟩
        · exact .inr ⟨closed, out, cells, new, read, gainsAfter.contents_of_singleton⟩

/-- Files that do not open leave the text of the tree behind. -/
theorem writeJSONToFileIn_run_closed :
    let closed := { inMemory with create := fun _ _ => none }
    (writeJSONToFileIn (fun _ => true) closed (fun _ => none) sample [] Heap.empty =
        .error .nullPointer ∧
        ∃ after, printValueIn (fun _ => true) sample 0 true Heap.empty = .ok (none, after) ∧
          Heap.Refused (fun _ => true) Heap.empty after) ∨
      ∃ after,
        writeJSONToFileIn (fun _ => true) closed (fun _ => none) sample [] Heap.empty =
          .ok (closed.writeJSONToFile (fun _ => none) sample [], after) ∧
        ((closed.Opens (fun _ => none) sample [] ∧
            after.contents = (Heap.empty : Heap Cells).contents) ∨
          (¬ closed.Opens (fun _ => none) sample [] ∧ ∃ out cells,
            (Heap.empty : Heap Cells).contents out = none ∧
            stringIn cells = .ok sample.print ∧
            after.contents =
              Function.update (Heap.empty : Heap Cells).contents out (some cells))) :=
  writeJSONToFileIn_run (fun _ => true) { inMemory with create := fun _ _ => none }
    (fun _ => none) (by decide +kernel) [] Heap.empty

end FileSystem
end ProtobufSandbox
