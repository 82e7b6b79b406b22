import ProtobufSandbox.Json.ItemMemory
import ProtobufSandbox.Json.Shape

/-!
# The memory of the parser

`cJSON_Parse` with every block that it allocates and frees. A request for a block
may be refused at any time. An item is linked to its tree before it is filled, so
that a parse that fails leaves all it has allocated to `cJSON_Delete`.
-/

namespace ProtobufSandbox

/-- How a parse can leave its memory or its text. -/
inductive ParseFault where
  | freedBlock
  | parse (error : ParseError)
  deriving DecidableEq

/-- A computation on the blocks of items. -/
abbrev ParseAction (β : Type) := Heap.Action Unit ParseFault β

/-- What a part of the parser returns: where it ended, or null with what it leaves in
`ep`, if it sets that. -/
abbrev Pointer := Except (Option Bytes) Bytes

/-- A part of the parser that uses no blocks. -/
def readText : Except ParseError β → ParseAction β
  | .ok result => pure result
  | .error error => Heap.fail (.parse error)

namespace StoredItem

open CJSON (peek skip startsWith parseNumber measure copyString)

/-- `skip`, also of a null pointer. -/
def skipIn : Pointer → ParseAction Pointer
  | .error ep => return .error ep
  | .ok value => return .ok (← readText (skip value))

/-- `parse_number`. -/
def parseNumberIn
    (item : StoredItem)
    (num : Bytes) : ParseAction (StoredItem × Pointer) := do
  let (number, num) ← readText (parseNumber item.erase num)
  return ({ item with
      valuedouble := number.valuedouble
      valueint := number.valueint
      type := .number }, .ok num)

variable (granted : Nat → Bool)

/-- `parse_string`. -/
def parseStringIn
    (item : StoredItem)
    (str : Bytes) : ParseAction (StoredItem × Pointer) := do
  if (← readText (peek str)) ≠ quote then return (item, .error (some str))
  let len ← readText (measure (str.drop 1))
  match ← Heap.malloc granted () with
  | none => return (item, .error none)
  | some block =>
      let (out, ptr) ← readText (copyString (len + 1) str.length (str.drop 1) [])
      let out ← readText (CJSON.store (len + 1) out [0])
      let ptr := if (← readText (peek ptr)) = quote then ptr.drop 1 else ptr
      return ({ item with
          valuestring := some (block, CString.ofBuffer out)
          type := .string }, .ok ptr)

/-- The loop over the entries behind the first one. -/
def parseEntriesIn
    (entry : StoredItem → Bytes → ParseAction (StoredItem × Pointer)) :
    Nat → Bytes → ParseAction (List StoredItem × Pointer)
  | 0, _ => Heap.fail (.parse .outOfFuel)
  | turns + 1, value => do
      if (← readText (peek value)) ≠ comma then return ([], .ok value)
      match ← newItemIn granted with
      | none => return ([], .error none)
      | some new_item =>
          let (child, result) ← entry new_item (value.drop 1)
          match result with
          | .error ep => return ([child], .error ep)
          | .ok value =>
              let (children, result) ← parseEntriesIn entry turns value
              return (child :: children, result)

/-- The common body of `parse_array` and `parse_object`. -/
def parseContainerIn
    (opening closing : UInt8)
    (entry : StoredItem → Bytes → ParseAction (StoredItem × Pointer))
    (value : Bytes) :
    ParseAction (List StoredItem × Pointer) := do
  if (← readText (peek value)) ≠ opening then return ([], .error (some value))
  let value ← readText (skip (value.drop 1))
  if (← readText (peek value)) = closing then return ([], .ok (value.drop 1))
  match ← newItemIn granted with
  | none => return ([], .error none)
  | some new_item =>
      let (child, result) ← entry new_item value
      match result with
      | .error ep => return ([child], .error ep)
      | .ok value =>
          let (children, result) ← parseEntriesIn granted entry value.length value
          match result with
          | .error ep => return (child :: children, .error ep)
          | .ok value =>
              if (← readText (peek value)) = closing then
                return (child :: children, .ok (value.drop 1))
              return (child :: children, .error (some value))

/-- An element of an array. -/
def parseElementIn
    (parse : StoredItem → Bytes → ParseAction (StoredItem × Pointer))
    (child : StoredItem)
    (value : Bytes) :
    ParseAction (StoredItem × Pointer) := do
  let (child, result) ← parse child (← readText (skip value))
  return (child, ← skipIn result)

/-- A member of an object. -/
def parseMemberIn
    (parse : StoredItem → Bytes → ParseAction (StoredItem × Pointer))
    (child : StoredItem)
    (value : Bytes) :
    ParseAction (StoredItem × Pointer) := do
  let (child, result) ← parseStringIn granted child (← readText (skip value))
  match ← skipIn result with
  | .error ep => return (child, .error ep)
  | .ok value =>
      let child := { child with string := child.valuestring, valuestring := none }
      if (← readText (peek value)) ≠ colon then return (child, .error (some value))
      let (child, result) ← parse child (← readText (skip (value.drop 1)))
      return (child, ← skipIn result)

/-- `parse_array`. -/
def parseArrayIn
    (parse : StoredItem → Bytes → ParseAction (StoredItem × Pointer))
    (item : StoredItem)
    (value : Bytes) :
    ParseAction (StoredItem × Pointer) := do
  let (child, result) ←
    parseContainerIn granted openBracket closeBracket (parseElementIn parse) value
  return ({ item with type := .array, child := child }, result)

/-- `parse_object`. -/
def parseObjectIn
    (parse : StoredItem → Bytes → ParseAction (StoredItem × Pointer))
    (item : StoredItem)
    (value : Bytes) :
    ParseAction (StoredItem × Pointer) := do
  let (child, result) ←
    parseContainerIn granted openBrace closeBrace (parseMemberIn granted parse) value
  return ({ item with type := .object, child := child }, result)

/-- `parse_value`, down to a depth of nesting. -/
def parseValueIn : Nat → StoredItem → Bytes → ParseAction (StoredItem × Pointer)
  | 0, _, _ => Heap.fail (.parse .outOfFuel)
  | depth + 1, item, value => do
      if ← readText (startsWith (ascii ['n', 'u', 'l', 'l']) value) then
        return ({ item with type := .null }, .ok (value.drop 4))
      if ← readText (startsWith (ascii ['f', 'a', 'l', 's', 'e']) value) then
        return ({ item with type := .false }, .ok (value.drop 5))
      if ← readText (startsWith (ascii ['t', 'r', 'u', 'e']) value) then
        return ({ item with type := .true, valueint := 1 }, .ok (value.drop 4))
      let byte ← readText (peek value)
      if byte = quote then return ← parseStringIn granted item value
      if byte = minus ∨ Decimal.isDigit byte then
        return ← parseNumberIn item value
      if byte = openBracket then
        return ← parseArrayIn granted (parseValueIn depth) item value
      if byte = openBrace then
        return ← parseObjectIn granted (parseValueIn depth) item value
      return (item, .error (some value))

/-- `cJSON_ParseWithOpts`: the item or null, and where the parse ended. -/
def parseWithOptsIn
    (value : Bytes)
    (requireNullTerminated : Bool) :
    ParseAction (Option StoredItem × Pointer) := do
  match ← newItemIn granted with
  | none => return (none, .error none)
  | some c =>
      let (c, result) ←
        parseValueIn granted (value.length + 1) c (← readText (skip value))
      match result with
      | .error ep =>
          c.delete .freedBlock
          return (none, .error ep)
      | .ok ending =>
          if requireNullTerminated then
            let ending ← readText (skip ending)
            if (← readText (peek ending)) ≠ 0 then
              c.delete .freedBlock
              return (none, .error (some ending))
            return (some c, .ok ending)
          return (some c, .ok ending)

/-! ## The parts that cannot fail to parse -/

section Clean

/-- An outcome that is not a parse failure. -/
def Clean (outcome : Except ParseError γ) : Prop :=
  Outcome.Meets (fun error => ∀ ep, error ≠ .malformed ep) (fun _ => True) outcome

theorem peek_clean (value : Bytes) : Clean (peek value) := by
  cases value with
  | nil => exact fun _ => ParseError.noConfusion
  | cons byte value => exact trivial

theorem skip_clean (value : Bytes) : Clean (skip value) := by
  induction value with
  | nil => exact fun _ => ParseError.noConfusion
  | cons byte value inductionHypothesis =>
      rw [skip]
      exact Outcome.Meets.ite (fun _ => inductionHypothesis) (fun _ => trivial)

theorem startsWith_clean (literal value : Bytes) : Clean (startsWith literal value) :=
  CJSON.startsWith_meets (fun _ => ParseError.noConfusion) literal value

theorem readDigits_clean {R : Type} [Semiring R] (n : R) (num : Bytes) :
    Clean (CJSON.readDigits n num) := by
  induction num generalizing n with
  | nil => exact fun _ => ParseError.noConfusion
  | cons byte num inductionHypothesis =>
      rw [CJSON.readDigits]
      exact Outcome.Meets.ite
        (fun _ => (inductionHypothesis _).bind fun _ _ => trivial) (fun _ => trivial)

theorem readSign_clean (num : Bytes) : Clean (CJSON.readSign num) :=
  (peek_clean num).bind fun _ _ => Outcome.Meets.ite (fun _ => trivial) fun _ => trivial

theorem readWhole_clean (num : Bytes) : Clean (CJSON.readWhole num) := by
  refine (peek_clean num).bind fun _ _ => ?_
  refine (peek_clean _).bind fun _ _ => Outcome.Meets.ite (fun _ => ?_) fun _ => trivial
  exact (readDigits_clean 0 _).bind fun _ _ => trivial

theorem readFraction_clean (n : Rat) (num : Bytes) :
    Clean (CJSON.readFraction n num) := by
  refine (peek_clean num).bind fun _ _ => Outcome.Meets.ite (fun _ => ?_) fun _ => trivial
  refine (peek_clean _).bind fun _ _ => Outcome.Meets.ite (fun _ => ?_) fun _ => trivial
  exact readDigits_clean n _

theorem readExponent_clean (num : Bytes) : Clean (CJSON.readExponent num) := by
  refine (peek_clean num).bind fun _ _ => Outcome.Meets.ite (fun _ => ?_) fun _ => trivial
  refine (peek_clean _).bind fun _ _ => ?_
  exact (readDigits_clean (0 : Int) _).bind fun _ _ => trivial

theorem parseNumber_clean (item : CJSON) (num : Bytes) : Clean (parseNumber item num) :=
  (readSign_clean num).bind fun _ _ =>
    (readWhole_clean _).bind fun _ _ =>
      (readFraction_clean _ _).bind fun _ _ =>
        (readExponent_clean _).bind fun _ _ => trivial

theorem readHex_clean (digits : Nat) (h : UInt32) (str : Bytes) :
    Clean (CJSON.readHex digits h str) := by
  induction digits generalizing h str with
  | zero => exact trivial
  | succ digits inductionHypothesis =>
      refine (peek_clean str).bind fun byte _ => ?_
      cases CJSON.hexDigit? byte with
      | none => exact trivial
      | some digit => exact inductionHypothesis _ _

theorem transcode_clean (ptr : Bytes) : Clean (CJSON.transcode ptr) := by
  refine Outcome.Meets.bind (readHex_clean 4 0 _) fun _ _ => ?_
  refine Outcome.Meets.ite (fun _ => trivial) fun _ => ?_
  refine Outcome.Meets.ite (fun _ => ?_) fun _ => trivial
  refine (peek_clean _).bind fun _ _ => Outcome.Meets.ite (fun _ => trivial) fun _ => ?_
  refine (peek_clean _).bind fun _ _ => Outcome.Meets.ite (fun _ => trivial) fun _ => ?_
  refine Outcome.Meets.bind (readHex_clean 4 0 _) fun _ _ => ?_
  exact Outcome.Meets.ite (fun _ => trivial) fun _ => trivial

theorem unescape_clean (ptr : Bytes) : Clean (CJSON.unescape ptr) := by
  refine (peek_clean ptr).bind fun _ _ => ?_
  iterate 5 refine Outcome.Meets.ite (fun _ => trivial) fun _ => ?_
  exact Outcome.Meets.ite (fun _ => transcode_clean ptr) fun _ => trivial

theorem measure_clean (ptr : Bytes) : Clean (measure ptr) := by
  fun_induction measure ptr with
  | case1 => exact fun _ => ParseError.noConfusion
  | case2 => exact trivial
  | case3 => exact fun _ => ParseError.noConfusion
  | case4 _ _ _ inductionHypothesis => exact inductionHypothesis.map fun _ _ => trivial
  | case5 _ _ _ _ inductionHypothesis => exact inductionHypothesis.map fun _ _ => trivial

theorem store_clean (size : Nat) (out bytes : Bytes) :
    Clean (CJSON.store size out bytes) :=
  Outcome.Meets.ite (fun _ => trivial) fun _ _ => ParseError.noConfusion

theorem copyString_clean (size turns : Nat) (ptr out : Bytes) :
    Clean (copyString size turns ptr out) := by
  induction turns generalizing ptr out with
  | zero => exact fun _ => ParseError.noConfusion
  | succ turns inductionHypothesis =>
      refine (peek_clean ptr).bind fun _ _ => Outcome.Meets.ite (fun _ => trivial) fun _ => ?_
      refine Outcome.Meets.ite (fun _ => ?_) fun _ => ?_
      · exact (store_clean _ _ _).bind fun _ _ => inductionHypothesis _ _
      · refine (unescape_clean _).bind fun _ _ => ?_
        exact (store_clean _ _ _).bind fun _ _ => inductionHypothesis _ _

end Clean

/-! ## The parser without memory -/

section Follows

open Heap (Spec)

variable {α β α' β' γ : Type}

/-- A fault that the parser has without memory as well. -/
def Faults (outcome : Except ParseError γ) (fault : ParseFault) : Prop :=
  ∃ error, fault = .parse error ∧ outcome = .error error ∧
    ∀ ep, error ≠ .malformed ep

/-- The result is the one without memory, or a request was refused. -/
def Simulates
    (granted : Nat → Bool)
    (erase : α → β)
    (outcome : Except ParseError (β × Bytes))
    (result : α × Pointer) : Prop :=
  (result.2 = .error none ∧ ∃ request, granted request = false) ∨
    (∃ rest, result.2 = .ok rest ∧ outcome = .ok (erase result.1, rest)) ∨
    ∃ ep, result.2 = .error (some ep) ∧ outcome = .error (.malformed ep)

/-- What a part of the parser builds: what it is without its blocks, its blocks, and
what it keeps. -/
structure Built (α β : Type) where
  erase : α → β
  blocks : α → List Block
  Keeps : α → Prop

/-- The blocks of what is built are owned, and it is what the parser builds without
memory. -/
def Builds
    (granted : Nat → Bool)
    (kind : Built α β)
    (outcome : Except ParseError (β × Bytes))
    (result : α × Pointer)
    (own : List (Block × Unit)) : Prop :=
  kind.Keeps result.1 ∧ own.Perm (ledger (kind.blocks result.1)) ∧
    Simulates granted kind.erase outcome result

/-- A part of the parser builds what it builds without memory. -/
def Follows
    (granted : Nat → Bool)
    (kind : Built α β)
    (owned : List (Block × Unit))
    (action : ParseAction (α × Pointer))
    (outcome : Except ParseError (β × Bytes)) : Prop :=
  Spec (Faults outcome) owned action (Builds granted kind outcome)

variable {granted : Nat → Bool} {kind : Built α β} {kind' : Built α' β'}
variable {owned others : List (Block × Unit)}

/-- Both read from the text. -/
theorem read_spec
    {outcome : Except ParseError β}
    {next : β → ParseAction α}
    {pureNext : β → Except ParseError γ}
    {post : Except ParseError γ → α → List (Block × Unit) → Prop}
    (clean : Clean outcome)
    (follows : ∀ result, outcome = .ok result →
      Spec (Faults (pureNext result)) owned (next result) (post (pureNext result))) :
    Spec (Faults (outcome >>= pureNext)) owned (readText outcome >>= next)
      (post (outcome >>= pureNext)) := by
  cases outcome with
  | error error =>
      intro rest heap holds
      exact ⟨error, rfl, rfl, clean⟩
  | ok result => exact follows result rfl

theorem Follows.read
    {outcome : Except ParseError γ}
    {next : γ → ParseAction (α × Pointer)}
    {pureNext : γ → Except ParseError (β × Bytes)}
    (clean : Clean outcome)
    (follows : ∀ result, outcome = .ok result →
      Follows granted kind owned (next result) (pureNext result)) :
    Follows granted kind owned (readText outcome >>= next) (outcome >>= pureNext) :=
  @read_spec _ _ _ _ _ _ _ (Builds granted kind) clean follows

theorem Follows.ite
    {test : Prop}
    [Decidable test]
    {first second : ParseAction (α × Pointer)}
    {pureFirst pureSecond : Except ParseError (β × Bytes)}
    (firstFollows : test → Follows granted kind owned first pureFirst)
    (secondFollows : ¬ test → Follows granted kind owned second pureSecond) :
    Follows granted kind owned (if test then first else second)
      (if test then pureFirst else pureSecond) := by
  split
  · next holds => exact firstFollows holds
  · next fails => exact secondFollows fails

theorem follows_refused
    {built : α}
    (keeps : kind.Keeps built)
    (same : owned.Perm (ledger (kind.blocks built)))
    (refused : ∃ request, granted request = false)
    (outcome : Except ParseError (β × Bytes)) :
    Follows granted kind owned (pure (built, .error none)) outcome :=
  Spec.pure ⟨keeps, same, .inl ⟨rfl, refused⟩⟩

theorem follows_malformed
    {built : α}
    (keeps : kind.Keeps built)
    (same : owned.Perm (ledger (kind.blocks built)))
    (ep : Bytes) :
    Follows granted kind owned (pure (built, .error (some ep)))
      (.error (.malformed ep)) :=
  Spec.pure ⟨keeps, same, .inr (.inr ⟨ep, rfl, rfl⟩)⟩

theorem follows_returned
    {built : α}
    {item : β}
    (keeps : kind.Keeps built)
    (same : owned.Perm (ledger (kind.blocks built)))
    (erased : kind.erase built = item)
    (rest : Bytes) :
    Follows granted kind owned (pure (built, .ok rest)) (.ok (item, rest)) :=
  Spec.pure ⟨keeps, same, .inr (.inl ⟨rest, rfl, by rw [← erased]⟩)⟩

theorem Follows.perm
    {action : ParseAction (α × Pointer)}
    {outcome : Except ParseError (β × Bytes)}
    (follows : Follows granted kind owned action outcome)
    (same : others.Perm owned) :
    Follows granted kind others action outcome :=
  Spec.perm follows same

/-- A block is requested. -/
theorem Follows.malloc
    {next : Option Block → ParseAction (α × Pointer)}
    {outcome : Except ParseError (β × Bytes)}
    (refused : (∃ request, granted request = false) →
      Follows granted kind owned (next none) outcome)
    (follows : ∀ block,
      Follows granted kind (ledger [block] ++ owned) (next (some block)) outcome) :
    Follows granted kind owned (Heap.malloc granted () >>= next) outcome := by
  apply Heap.malloc_spec.bind_new
  rintro result own (⟨rfl, rfl, request⟩ | ⟨block, rfl, rfl⟩)
  · exact refused request
  · exact follows block

/-- A new item is requested. -/
theorem Follows.newItem
    {next : Option StoredItem → ParseAction (α × Pointer)}
    {outcome : Except ParseError (β × Bytes)}
    (refused : (∃ request, granted request = false) →
      Follows granted kind owned (next none) outcome)
    (follows : ∀ block,
      Follows granted kind (ledger [block] ++ owned) (next (some (blank block)))
        outcome) :
    Follows granted kind owned (newItemIn granted >>= next) outcome := by
  apply newItemIn_spec.bind_new
  rintro result own (⟨rfl, rfl, request⟩ | ⟨block, rfl, rfl⟩)
  · exact refused request
  · exact follows block

/-- Both go on from what the first part has built, in each of the ways in which it
ends. -/
theorem Follows.bind_spec
    {action : ParseAction (α × Pointer)}
    {outcome : Except ParseError (β × Bytes)}
    {next : α × Pointer → ParseAction α'}
    {pureNext : β × Bytes → Except ParseError γ}
    {post : Except ParseError γ → α' → List (Block × Unit) → Prop}
    (follows : Follows granted kind owned action outcome)
    (refused : ∀ built, kind.Keeps built → (∃ request, granted request = false) →
      Spec (Faults (outcome >>= pureNext)) (ledger (kind.blocks built) ++ others)
        (next (built, .error none)) (post (outcome >>= pureNext)))
    (malformed : ∀ built ep, kind.Keeps built →
      Spec (Faults (.error (.malformed ep) : Except ParseError γ))
        (ledger (kind.blocks built) ++ others)
        (next (built, .error (some ep))) (post (.error (.malformed ep))))
    (continues : ∀ built rest, kind.Keeps built →
      outcome = .ok (kind.erase built, rest) →
      Spec (Faults (pureNext (kind.erase built, rest)))
        (ledger (kind.blocks built) ++ others)
        (next (built, .ok rest)) (post (pureNext (kind.erase built, rest)))) :
    Spec (Faults (outcome >>= pureNext)) (owned ++ others) (action >>= next)
      (post (outcome >>= pureNext)) := by
  intro rest heap holds
  have met := follows.frame others rest heap holds
  change Outcome.Meets _ _ (action heap >>= fun out => next out.1 out.2)
  cases run : action heap with
  | error fault =>
      rw [run] at met
      obtain ⟨error, rfl, failed, clean⟩ := met
      exact ⟨error, rfl, by rw [failed]; rfl, clean⟩
  | ok out =>
      rw [run] at met
      obtain ⟨⟨built, result⟩, after⟩ := out
      obtain ⟨own', ⟨own, ⟨kept, sameBuilt, simulates⟩, rfl⟩, holdsAfter⟩ := met
      have holdsBuilt := holdsAfter.perm
        ((sameBuilt.append_right others).append_right rest)
      rcases simulates with ⟨null, request⟩ | ⟨ending, returned, built'⟩ | ⟨ep, null, bad⟩
      · dsimp only at null
        subst null
        exact refused built kept request rest after holdsBuilt
      · dsimp only at returned
        subst returned
        have goes := continues built ending kept built' rest after holdsBuilt
        rw [built']
        exact goes
      · dsimp only at null
        subst null
        rw [bad]
        exact malformed built ep kept rest after holdsBuilt

/-- Both go on from what the first part has built. A null pointer is passed on. -/
theorem Follows.bind
    {action : ParseAction (α × Pointer)}
    {outcome : Except ParseError (β × Bytes)}
    {next : α × Pointer → ParseAction (α' × Pointer)}
    {pureNext : β × Bytes → Except ParseError (β' × Bytes)}
    (follows : Follows granted kind owned action outcome)
    (wrap : α → α')
    (failed : ∀ built ep, next (built, .error ep) = pure (wrap built, .error ep))
    (keeps : ∀ built, kind.Keeps built → kind'.Keeps (wrap built))
    (same : ∀ built, kind.Keeps built →
      (ledger (kind.blocks built) ++ others).Perm (ledger (kind'.blocks (wrap built))))
    (continues : ∀ built rest, kind.Keeps built →
      outcome = .ok (kind.erase built, rest) →
      Follows granted kind' (ledger (kind.blocks built) ++ others)
        (next (built, .ok rest)) (pureNext (kind.erase built, rest))) :
    Follows granted kind' (owned ++ others) (action >>= next)
      (outcome >>= pureNext) := by
  change Spec _ _ _ (Builds granted kind' _)
  refine follows.bind_spec ?_ ?_ continues
  · intro built kept refused
    rw [failed]
    exact follows_refused (keeps built kept) (same built kept) refused _
  · intro built ep kept
    rw [failed]
    exact follows_malformed (keeps built kept) (same built kept) ep

/-- The blank behind what the first part has built is passed over. -/
theorem Follows.skip
    {action : ParseAction (α × Pointer)}
    {outcome : Except ParseError (β × Bytes)}
    (follows : Follows granted kind owned action outcome) :
    Follows granted kind owned
      (action >>= fun result => skipIn result.2 >>= fun rest => pure (result.1, rest))
      (outcome >>= fun result => CJSON.skip result.2 >>= fun rest =>
        .ok (result.1, rest)) := by
  rw [← List.append_nil owned]
  refine follows.bind id (fun _ _ => rfl) (fun _ keeps => keeps)
    (fun _ _ => .of_eq (List.append_nil _)) fun built rest keeps _ => ?_
  rw [skipIn, bind_assoc]
  refine Follows.read (skip_clean rest) fun value _ => ?_
  exact follows_returned keeps (.of_eq (List.append_nil _)) rfl value

end Follows

/-! ## Items -/

theorem erase_eq (item : StoredItem) :
    item.erase =
      ⟨item.child.map erase, item.type, item.valuestring.map Prod.snd, item.valueint,
        item.valuedouble, item.string.map Prod.snd⟩ := by
  cases item
  rw [erase, eraseAll_eq_map]

/-- An item that is no reference. -/
def builtItem : Built StoredItem CJSON where
  erase := erase
  blocks := blocks
  Keeps item := item.isReference = false

/-- A chain of items. -/
def builtItems : Built (List StoredItem) (List CJSON) where
  erase := eraseAll
  blocks := blocksOf
  Keeps _ := True

/-- An item that can be filled without a block being lost. -/
structure Fresh (item : StoredItem) : Prop where
  own : item.isReference = false
  child : item.child = []
  valuestring : item.valuestring = none

theorem fresh_blank (block : Block) : (blank block).Fresh where
  own := rfl
  child := rfl
  valuestring := rfl

/-- A part of the parser that fills an item. -/
def Fills
    (granted : Nat → Bool)
    (parseIn : StoredItem → Bytes → ParseAction (StoredItem × Pointer))
    (parse : CJSON → Bytes → Except ParseError (CJSON × Bytes)) : Prop :=
  ∀ item value, Fresh item →
    Follows granted builtItem (ledger item.blocks) (parseIn item value)
      (parse item.erase value)

section Fills

open Heap (Spec)

variable {granted : Nat → Bool}

/-- Parsing a number changes the numbers and the type of an item. -/
theorem parseNumber_fills (item : CJSON) (num : Bytes) :
    Outcome.Meets (fun _ => True)
      (fun out => out.1 = { item with
        valuedouble := out.1.valuedouble
        valueint := out.1.valueint
        type := .number })
      (parseNumber item num) := by
  exact (CJSON.returns_true _).bind fun _ _ => (CJSON.returns_true _).bind fun _ _ =>
    (CJSON.returns_true _).bind fun _ _ => (CJSON.returns_true _).bind fun _ _ => rfl

theorem blocks_with_number
    (item : StoredItem)
    (valuedouble : Rat)
    (valueint : Int32)
    (type : CJSONType) :
    ({ item with valuedouble := valuedouble, valueint := valueint, type := type } :
      StoredItem).blocks = item.blocks := by
  cases item
  rw [blocks, blocks]

theorem parseNumberIn_fills : Fills granted parseNumberIn parseNumber := by
  intro item num fresh
  rw [← bind_pure (parseNumber item.erase num), parseNumberIn]
  refine Follows.read (parseNumber_clean item.erase num) fun result parsed => ?_
  have filled := (parseNumber_fills item.erase num).of_eq_ok parsed
  refine follows_returned fresh.own ?_ ?_ result.2
  · change List.Perm _ (ledger (StoredItem.blocks _))
    rw [blocks_with_number]
  · change StoredItem.erase _ = result.1
    rw [filled, erase_eq, erase_eq]

theorem parseStringIn_fills : Fills granted (parseStringIn granted) CJSON.parseString := by
  intro item str fresh
  rw [parseStringIn, CJSON.parseString]
  refine Follows.read (peek_clean str) fun byte _ => ?_
  refine Follows.ite (fun _ => follows_malformed fresh.own (.refl _) str) fun _ => ?_
  refine Follows.read (measure_clean _) fun len _ => ?_
  refine Follows.malloc (fun refused => follows_refused fresh.own (.refl _) refused _)
    fun block => ?_
  refine Follows.read (copyString_clean _ _ _ _) fun copied _ => ?_
  refine Follows.read (store_clean _ _ _) fun out _ => ?_
  refine Follows.read (peek_clean _) fun last _ => ?_
  refine follows_returned fresh.own ?_ ?_ _
  · refine perm_blocks_of_parts fresh.own ?_
    change List.Perm _ (ledger (blocksOf item.child) ++ (ledger (stringBlocks item.string) ++
      (ledger [block] ++ ledger [item.block])))
    rw [blocks_of_own fresh.own, fresh.child, fresh.valuestring, ledger_append,
      ledger_append, ledger_append]
    exact List.perm_append_comm_assoc (ledger [block])
      (ledger (stringBlocks item.string)) (ledger [item.block])
  · change StoredItem.erase _ = _
    rw [erase_eq, erase_eq]
    rfl

/-- A part of the parser that fills a blank item. -/
def FillsBlank
    (granted : Nat → Bool)
    (entryIn : StoredItem → Bytes → ParseAction (StoredItem × Pointer))
    (entry : Bytes → Except ParseError (CJSON × Bytes)) : Prop :=
  ∀ block value,
    Follows granted builtItem (ledger [block]) (entryIn (blank block) value) (entry value)

theorem perm_blocksOf_singleton (child : StoredItem) :
    (ledger child.blocks ++ []).Perm (ledger (blocksOf [child])) := by
  rw [blocksOf, ledger_append]
  rfl

theorem perm_blocksOf_cons (child : StoredItem) (children : List StoredItem) :
    (ledger (blocksOf children) ++ (ledger child.blocks ++ [])).Perm
      (ledger (blocksOf (child :: children))) := by
  rw [blocksOf, ledger_append, List.append_nil]
  exact List.perm_append_comm

theorem parseEntriesIn_follows
    {entryIn : StoredItem → Bytes → ParseAction (StoredItem × Pointer)}
    {entry : Bytes → Except ParseError (CJSON × Bytes)}
    (fills : FillsBlank granted entryIn entry)
    (turns : Nat)
    (value : Bytes) :
    Follows granted builtItems [] (parseEntriesIn granted entryIn turns value)
      (CJSON.parseEntries entry turns value) := by
  induction turns generalizing value with
  | zero => exact Spec.fail ⟨.outOfFuel, rfl, rfl, fun _ => ParseError.noConfusion⟩
  | succ turns inductionHypothesis =>
      rw [parseEntriesIn, CJSON.parseEntries]
      refine Follows.read (peek_clean value) fun byte _ => ?_
      refine Follows.ite (fun _ => follows_returned trivial (by rfl) (by rfl) value) fun _ => ?_
      refine Follows.newItem (fun refused => follows_refused trivial (by rfl) refused _)
        fun block => ?_
      refine (fills block _).bind ([·]) (fun _ _ => rfl) (fun _ _ => trivial)
        (fun child _ => perm_blocksOf_singleton child) fun child rest _ _ => ?_
      refine (inductionHypothesis rest).bind (child :: ·) (fun _ _ => rfl)
        (fun _ _ => trivial) (fun children _ => perm_blocksOf_cons child children)
        fun children rest _ _ => ?_
      exact follows_returned trivial (perm_blocksOf_cons child children) (by rfl) rest

theorem parseContainerIn_follows
    {entryIn : StoredItem → Bytes → ParseAction (StoredItem × Pointer)}
    {entry : Bytes → Except ParseError (CJSON × Bytes)}
    (fills : FillsBlank granted entryIn entry)
    (opening closing : UInt8)
    (value : Bytes) :
    Follows granted builtItems [] (parseContainerIn granted opening closing entryIn value)
      (CJSON.parseContainer opening closing entry value) := by
  rw [parseContainerIn, CJSON.parseContainer]
  refine Follows.read (peek_clean value) fun byte _ => ?_
  refine Follows.ite (fun _ => follows_malformed trivial (by rfl) value) fun _ => ?_
  refine Follows.read (skip_clean _) fun value _ => ?_
  refine Follows.read (peek_clean value) fun byte _ => ?_
  refine Follows.ite (fun _ => follows_returned trivial (by rfl) (by rfl) _) fun _ => ?_
  refine Follows.newItem (fun refused => follows_refused trivial (by rfl) refused _)
    fun block => ?_
  refine (fills block value).bind ([·]) (fun _ _ => rfl) (fun _ _ => trivial)
    (fun child _ => perm_blocksOf_singleton child) fun child rest _ _ => ?_
  refine (parseEntriesIn_follows fills _ rest).bind (child :: ·) (fun _ _ => rfl)
    (fun _ _ => trivial) (fun children _ => perm_blocksOf_cons child children)
    fun children rest _ _ => ?_
  have same := perm_blocksOf_cons child children
  refine Follows.read (peek_clean rest) fun byte _ => ?_
  refine Follows.ite (fun _ => follows_returned trivial same (by rfl) _)
    fun _ => follows_malformed trivial same rest

theorem parseElementIn_fills
    {parseIn : StoredItem → Bytes → ParseAction (StoredItem × Pointer)}
    {parse : CJSON → Bytes → Except ParseError (CJSON × Bytes)}
    (fills : Fills granted parseIn parse) :
    FillsBlank granted (parseElementIn parseIn) (CJSON.parseElement parse) := by
  intro block value
  rw [parseElementIn, CJSON.parseElement]
  refine Follows.read (skip_clean value) fun value _ => ?_
  exact (fills (blank block) value (fresh_blank block)).skip

/-- A child with its string as its name. -/
def named (child : StoredItem) : StoredItem :=
  { child with string := child.valuestring, valuestring := none }

theorem fresh_named
    {child : StoredItem}
    (own : child.isReference = false)
    (childless : child.erase.child = []) :
    (named child).Fresh where
  own := own
  child := by
    rw [erase_eq] at childless
    exact List.map_eq_nil_iff.mp childless
  valuestring := rfl

theorem erase_named (child : StoredItem) :
    (named child).erase =
      { child.erase with string := child.erase.valuestring, valuestring := none } := by
  rw [erase_eq, erase_eq]
  rfl

theorem perm_named
    {child : StoredItem}
    (own : child.isReference = false)
    (unnamed : child.erase.string = none) :
    (ledger child.blocks ++ []).Perm (ledger (named child).blocks) := by
  have noString : child.string = none := by
    rw [erase_eq] at unnamed
    exact Option.map_eq_none_iff.mp unnamed
  rw [List.append_nil, blocks_of_own own, noString]
  refine perm_blocks_of_parts own (.of_eq ?_)
  rw [ledger_append, ledger_append, List.append_assoc]
  rfl

theorem parseMemberIn_fills
    {parseIn : StoredItem → Bytes → ParseAction (StoredItem × Pointer)}
    {parse : CJSON → Bytes → Except ParseError (CJSON × Bytes)}
    (fills : Fills granted parseIn parse) :
    FillsBlank granted (parseMemberIn granted parseIn) (CJSON.parseMember parse) := by
  intro block value
  rw [parseMemberIn, CJSON.parseMember]
  refine Follows.read (skip_clean value) fun value _ => ?_
  have string : Follows granted builtItem (ledger [block])
      (parseStringIn granted (blank block) value)
      (CJSON.parseString CJSON.newItem value) :=
    parseStringIn_fills (blank block) value (fresh_blank block)
  rw [← List.append_nil (ledger [block])]
  refine string.bind id (fun _ _ => rfl) (fun _ own => own)
    (fun _ _ => .of_eq (List.append_nil _)) fun child rest own parsed => ?_
  obtain ⟨text, filled⟩ :=
    (CJSON.parseString_fills CJSON.newItem value).of_eq_ok parsed
  have childErased : child.erase =
      { CJSON.newItem with type := .string, valuestring := some text } := filled
  dsimp only
  rw [skipIn, bind_assoc]
  refine Follows.read (skip_clean rest) fun value _ => ?_
  rw [pure_bind]
  have same := perm_named own (by rw [childErased]; rfl)
  refine Follows.read (peek_clean value) fun byte _ => ?_
  refine Follows.ite (fun _ => follows_malformed (by exact own) same value) fun _ => ?_
  refine Follows.read (skip_clean _) fun value _ => ?_
  have fresh := fresh_named own (by rw [childErased]; rfl)
  have filled := ((fills (named child) value fresh).skip).perm same
  rw [erase_named] at filled
  exact filled

/-- The children that are read become those of the item. -/
theorem parseContainerIn_fills
    {entryIn : StoredItem → Bytes → ParseAction (StoredItem × Pointer)}
    {entry : Bytes → Except ParseError (CJSON × Bytes)}
    (fills : FillsBlank granted entryIn entry)
    (opening closing : UInt8)
    (type : CJSONType)
    {item : StoredItem}
    (fresh : item.Fresh)
    (value : Bytes) :
    Follows granted builtItem (ledger item.blocks)
      (parseContainerIn granted opening closing entryIn value >>= fun result =>
        pure ({ item with type := type, child := result.1 }, result.2))
      (CJSON.parseContainer opening closing entry value >>= fun result =>
        .ok ({ item.erase with type := type, child := result.1 }, result.2)) := by
  have same (children : List StoredItem) :
      (ledger (blocksOf children) ++ ledger item.blocks).Perm
        (ledger (blocks { item with type := type, child := children })) := by
    refine perm_blocks_of_parts fresh.own ?_
    rw [blocks_of_own fresh.own, fresh.child, fresh.valuestring, ledger_append,
      ledger_append, ledger_append]
    rfl
  rw [← List.nil_append (ledger item.blocks)]
  refine (parseContainerIn_follows fills opening closing value).bind
    (fun children => { item with type := type, child := children }) (fun _ _ => rfl)
    (fun _ _ => fresh.own) (fun children _ => same children)
    fun children rest _ _ => follows_returned fresh.own (same children) ?_ rest
  change StoredItem.erase _ = _
  rw [erase_eq, erase_eq, ← eraseAll_eq_map, ← eraseAll_eq_map]
  rfl

theorem parseArrayIn_fills
    {parseIn : StoredItem → Bytes → ParseAction (StoredItem × Pointer)}
    {parse : CJSON → Bytes → Except ParseError (CJSON × Bytes)}
    (fills : Fills granted parseIn parse) :
    Fills granted (parseArrayIn granted parseIn) (CJSON.parseArray parse) :=
  fun _ value fresh =>
    parseContainerIn_fills (parseElementIn_fills fills) openBracket closeBracket .array
      fresh value

theorem parseObjectIn_fills
    {parseIn : StoredItem → Bytes → ParseAction (StoredItem × Pointer)}
    {parse : CJSON → Bytes → Except ParseError (CJSON × Bytes)}
    (fills : Fills granted parseIn parse) :
    Fills granted (parseObjectIn granted parseIn) (CJSON.parseObject parse) :=
  fun _ value fresh =>
    parseContainerIn_fills (parseMemberIn_fills fills) openBrace closeBrace .object
      fresh value

theorem parseValueIn_fills (depth : Nat) :
    Fills granted (parseValueIn granted depth) (CJSON.parseValue depth) := by
  induction depth with
  | zero =>
      exact fun _ _ _ => Spec.fail ⟨.outOfFuel, rfl, rfl, fun _ => ParseError.noConfusion⟩
  | succ depth inductionHypothesis =>
      intro item value fresh
      have literal (type : CJSONType) (rest : Bytes) :
          Follows granted builtItem (ledger item.blocks)
            (pure ({ item with type := type }, .ok rest))
            (.ok ({ item.erase with type := type }, rest)) := by
        refine follows_returned fresh.own ?_ ?_ rest
        · exact .of_eq (congrArg ledger
            (blocks_with_number item item.valuedouble item.valueint type).symm)
        · change StoredItem.erase _ = _
          rw [erase_eq, erase_eq]
      have isTrue (rest : Bytes) :
          Follows granted builtItem (ledger item.blocks)
            (pure ({ item with type := .true, valueint := 1 }, .ok rest))
            (.ok ({ item.erase with type := .true, valueint := 1 }, rest)) := by
        refine follows_returned fresh.own ?_ ?_ rest
        · exact .of_eq (congrArg ledger
            (blocks_with_number item item.valuedouble 1 .true).symm)
        · change StoredItem.erase _ = _
          rw [erase_eq, erase_eq]
      rw [parseValueIn, CJSON.parseValue]
      refine Follows.read (startsWith_clean _ _) fun _ _ => ?_
      refine Follows.ite (fun _ => literal .null _) fun _ => ?_
      refine Follows.read (startsWith_clean _ _) fun _ _ => ?_
      refine Follows.ite (fun _ => literal .false _) fun _ => ?_
      refine Follows.read (startsWith_clean _ _) fun _ _ => ?_
      refine Follows.ite (fun _ => isTrue _) fun _ => ?_
      refine Follows.read (peek_clean value) fun byte _ => ?_
      refine Follows.ite (fun _ => parseStringIn_fills item value fresh) fun _ => ?_
      refine Follows.ite (fun _ => parseNumberIn_fills item value fresh) fun _ => ?_
      refine Follows.ite
        (fun _ => parseArrayIn_fills inductionHypothesis item value fresh) fun _ => ?_
      refine Follows.ite
        (fun _ => parseObjectIn_fills inductionHypothesis item value fresh) fun _ => ?_
      exact follows_malformed fresh.own (by rfl) value

/-- What `cJSON_ParseWithOpts` returns: the tree that the parser builds without
memory, or null with no block left behind. -/
def Parses
    (granted : Nat → Bool)
    (outcome : Except ParseError (CJSON × Bytes))
    (result : Option StoredItem × Pointer)
    (owned : List (Block × Unit)) : Prop :=
  (∃ tree ending, result = (some tree, .ok ending) ∧
      outcome = .ok (tree.erase, ending) ∧ owned.Perm (ledger tree.blocks)) ∨
    (result.1 = none ∧ owned = [] ∧
      ((∃ ep, result.2 = .error (some ep) ∧ outcome = .error (.malformed ep)) ∨
        (result.2 = .error none ∧ ∃ request, granted request = false)))

/-- What is built is deleted, and the parser returns null. -/
theorem delete_parses
    {outcome : Except ParseError (CJSON × Bytes)}
    {result : Pointer}
    (null : (∃ ep, result = .error (some ep) ∧ outcome = .error (.malformed ep)) ∨
      (result = .error none ∧ ∃ request, granted request = false))
    (c : StoredItem) :
    Spec (Faults outcome) (ledger c.blocks ++ [])
      (do c.delete .freedBlock; return (none, result)) (Parses granted outcome) := by
  apply (delete_spec c).bind
  rintro - owned rfl
  exact Spec.pure (.inr ⟨rfl, rfl, null⟩)

theorem parseWithOptsIn_spec (value : Bytes) (requireNullTerminated : Bool) :
    Spec (Faults (CJSON.parseWithOpts value requireNullTerminated)) []
      (parseWithOptsIn granted value requireNullTerminated)
      (Parses granted (CJSON.parseWithOpts value requireNullTerminated)) := by
  rw [parseWithOptsIn, CJSON.parseWithOpts]
  apply newItemIn_spec.bind_new
  rintro result own (⟨rfl, rfl, refused⟩ | ⟨block, rfl, rfl⟩)
  · exact Spec.pure (.inr ⟨rfl, rfl, .inr ⟨rfl, refused⟩⟩)
  refine read_spec (skip_clean value) fun start _ => ?_
  have follows : Follows granted builtItem (ledger [block])
      (parseValueIn granted (value.length + 1) (blank block) start)
      (CJSON.parseValue (value.length + 1) CJSON.newItem start) :=
    parseValueIn_fills _ (blank block) start (fresh_blank block)
  refine follows.bind_spec (fun c _ refused => delete_parses (.inr ⟨rfl, refused⟩) c)
    (fun c ep _ => delete_parses (.inl ⟨ep, rfl, rfl⟩) c) fun c ending _ _ => ?_
  have returned (ending : Bytes) : Spec (Faults (.ok (c.erase, ending)))
      (ledger c.blocks ++ []) (pure (some c, .ok ending))
      (Parses granted (.ok (c.erase, ending))) :=
    Spec.pure (.inl ⟨c, ending, rfl, rfl, .of_eq (List.append_nil _)⟩)
  cases requireNullTerminated with
  | false => exact returned ending
  | true =>
      refine read_spec (skip_clean ending) fun ending _ => ?_
      refine read_spec (peek_clean ending) fun last _ => ?_
      by_cases terminated : last = 0
      · rw [if_neg (not_not_intro terminated), if_neg (not_not_intro terminated)]
        exact returned ending
      · rw [if_pos terminated, if_pos terminated]
        exact delete_parses (.inl ⟨ending, rfl, rfl⟩) c

/-- The parser leaves its text, returns a tree, or returns null, and then the text is malformed
or some request is refused. -/
theorem parseWithOptsIn_ends
    (granted : Nat → Bool)
    (value : Bytes)
    (requireNullTerminated : Bool)
    (heap : Heap Unit) :
    (∃ error, parseWithOptsIn granted value requireNullTerminated heap =
          .error (.parse error) ∧
        CJSON.parseWithOpts value requireNullTerminated = .error error ∧
        ∀ ep, error ≠ .malformed ep) ∨
      ∃ result ep after,
        parseWithOptsIn granted value requireNullTerminated heap =
          .ok ((result, ep), after) ∧
        ((∃ tree ending, result = some tree ∧ ep = .ok ending ∧
            CJSON.parseWithOpts value requireNullTerminated =
              .ok (tree.erase, ending) ∧
            Heap.Gains (ledger tree.blocks) heap after ∧
            ∃ final, tree.delete LedgerFault.freedBlock after = .ok ((), final) ∧
              final.contents = heap.contents) ∨
          (result = none ∧ after.contents = heap.contents ∧
            ((∃ text, ep = .error (some text) ∧
                CJSON.parseWithOpts value requireNullTerminated =
                  .error (.malformed text)) ∨
              (ep = .error none ∧ ∃ request, granted request = false)))) := by
  have met := (@parseWithOptsIn_spec granted value requireNullTerminated).run
    (Heap.gains_nil heap)
  cases run : parseWithOptsIn granted value requireNullTerminated heap with
  | error fault =>
      rw [run] at met
      obtain ⟨error, rfl, failed⟩ := met
      exact .inl ⟨error, rfl, failed⟩
  | ok out =>
      rw [run] at met
      obtain ⟨⟨result, ep⟩, after⟩ := out
      obtain ⟨owned, parses, gains⟩ := met
      refine .inr ⟨result, ep, after, rfl, ?_⟩
      rcases parses with ⟨tree, ending, returned, parsed, same⟩ | ⟨null, rfl, why⟩
      · cases returned
        exact .inl ⟨tree, ending, rfl, rfl, parsed, gains.perm same,
          delete_run (gains.perm same)⟩
      · exact .inr ⟨null, gains.contents_of_nil, why⟩

end Fills

/-! ## Requests -/

section Requests

open Heap (OwnAnswers ownAnswers_pure ownAnswers_fail ownAnswers_malloc)

theorem ownAnswers_readText (outcome : Except ParseError β) :
    OwnAnswers fun _ => readText outcome := by
  cases outcome with
  | ok result => exact ownAnswers_pure result
  | error error => exact ownAnswers_fail _

theorem ownAnswers_skipIn (value : Pointer) :
    OwnAnswers fun _ => skipIn value :=
  match value with
  | .error _ => ownAnswers_pure _
  | .ok value => (ownAnswers_readText (skip value)).bind fun _ => ownAnswers_pure _

theorem ownAnswers_parseNumberIn (item : StoredItem) (num : Bytes) :
    OwnAnswers fun _ => parseNumberIn item num :=
  (ownAnswers_readText _).bind fun _ => ownAnswers_pure _

theorem ownAnswers_parseStringIn (item : StoredItem) (str : Bytes) :
    OwnAnswers fun granted => parseStringIn granted item str :=
  (ownAnswers_readText _).bind fun _ => .ite (ownAnswers_pure _) <|
    (ownAnswers_readText _).bind fun _ => (ownAnswers_malloc ()).bind fun
      | none => ownAnswers_pure _
      | some _ =>
          (ownAnswers_readText _).bind fun _ => (ownAnswers_readText _).bind fun _ =>
            (ownAnswers_readText _).bind fun _ => ownAnswers_pure _

/-- A reader that depends on the answers to its own requests only. -/
def OwnReader
    (parse : (Nat → Bool) → StoredItem → Bytes → ParseAction (StoredItem × Pointer)) : Prop :=
  ∀ item value, OwnAnswers fun granted => parse granted item value

section Readers

variable {parse : (Nat → Bool) → StoredItem → Bytes → ParseAction (StoredItem × Pointer)}
variable (own : OwnReader parse)

include own

theorem ownAnswers_parseEntriesIn (turns : Nat) (value : Bytes) :
    OwnAnswers fun granted => parseEntriesIn granted (parse granted) turns value := by
  induction turns generalizing value with
  | zero => exact ownAnswers_fail _
  | succ turns inductionHypothesis =>
      refine (ownAnswers_readText _).bind fun _ => .ite (ownAnswers_pure _) ?_
      refine ownAnswers_newItemIn.bind fun
        | none => ownAnswers_pure _
        | some new_item => (own new_item _).bind ?_
      rintro ⟨child, ep | value⟩
      · exact ownAnswers_pure _
      · exact (inductionHypothesis value).bind fun _ => ownAnswers_pure _

theorem ownAnswers_parseContainerIn (opening closing : UInt8) (value : Bytes) :
    OwnAnswers fun granted =>
      parseContainerIn granted opening closing (parse granted) value := by
  refine (ownAnswers_readText _).bind fun _ => .ite (ownAnswers_pure _) ?_
  refine (ownAnswers_readText _).bind fun value => (ownAnswers_readText _).bind fun _ =>
    .ite (ownAnswers_pure _) ?_
  refine ownAnswers_newItemIn.bind fun
    | none => ownAnswers_pure _
    | some new_item => (own new_item _).bind ?_
  rintro ⟨child, ep | value⟩
  · exact ownAnswers_pure _
  · refine (ownAnswers_parseEntriesIn own _ value).bind ?_
    rintro ⟨children, ep | value⟩
    · exact ownAnswers_pure _
    · exact (ownAnswers_readText _).bind fun _ =>
        .ite (ownAnswers_pure _) (ownAnswers_pure _)

theorem ownReader_parseElementIn : OwnReader fun granted => parseElementIn (parse granted) :=
  fun child _ => (ownAnswers_readText _).bind fun _ => (own child _).bind fun result =>
    (ownAnswers_skipIn result.2).bind fun _ => ownAnswers_pure _

theorem ownReader_parseMemberIn :
    OwnReader fun granted => parseMemberIn granted (parse granted) := by
  intro child value
  refine (ownAnswers_readText _).bind fun _ => (ownAnswers_parseStringIn child _).bind
    fun named => (ownAnswers_skipIn named.2).bind ?_
  rintro (ep | value)
  · exact ownAnswers_pure _
  · exact (ownAnswers_readText _).bind fun _ => .ite (ownAnswers_pure _) <|
      (ownAnswers_readText _).bind fun _ => (own _ _).bind fun result =>
        (ownAnswers_skipIn result.2).bind fun _ => ownAnswers_pure _

theorem ownReader_parseArrayIn :
    OwnReader fun granted => parseArrayIn granted (parse granted) :=
  fun _ value => (ownAnswers_parseContainerIn (ownReader_parseElementIn own) _ _ value).bind
    fun _ => ownAnswers_pure _

theorem ownReader_parseObjectIn :
    OwnReader fun granted => parseObjectIn granted (parse granted) :=
  fun _ value => (ownAnswers_parseContainerIn (ownReader_parseMemberIn own) _ _ value).bind
    fun _ => ownAnswers_pure _

end Readers

theorem ownReader_parseValueIn (depth : Nat) :
    OwnReader fun granted => parseValueIn granted depth := by
  induction depth with
  | zero => exact fun _ _ => ownAnswers_fail _
  | succ depth inductionHypothesis =>
      intro item value
      refine (ownAnswers_readText _).bind fun _ => .ite (ownAnswers_pure _) ?_
      refine (ownAnswers_readText _).bind fun _ => .ite (ownAnswers_pure _) ?_
      refine (ownAnswers_readText _).bind fun _ => .ite (ownAnswers_pure _) ?_
      refine (ownAnswers_readText _).bind fun _ => ?_
      refine .ite (ownAnswers_parseStringIn item value) ?_
      refine .ite (ownAnswers_parseNumberIn item value) ?_
      refine .ite (ownReader_parseArrayIn inductionHypothesis item value) ?_
      exact .ite (ownReader_parseObjectIn inductionHypothesis item value) (ownAnswers_pure _)

theorem ownAnswers_parseWithOptsIn (value : Bytes) (requireNullTerminated : Bool) :
    OwnAnswers fun granted => parseWithOptsIn granted value requireNullTerminated := by
  refine ownAnswers_newItemIn.bind fun
    | none => ownAnswers_pure _
    | some c => (ownAnswers_readText _).bind fun start =>
        (ownReader_parseValueIn _ c start).bind ?_
  rintro ⟨c, ep | ending⟩
  · exact (ownAnswers_delete c).bind fun _ => ownAnswers_pure _
  · refine .ite ?_ (ownAnswers_pure _)
    exact (ownAnswers_readText _).bind fun _ => (ownAnswers_readText _).bind fun _ =>
      .ite ((ownAnswers_delete c).bind fun _ => ownAnswers_pure _) (ownAnswers_pure _)

end Requests

/-- Whatever requests for memory are refused, `cJSON_ParseWithOpts` uses its own memory
only. It leaves its text as it does without regard to memory; or it returns the same
tree, in new blocks, which is deleted without a trace; or it returns null, where the
text is malformed or one of its requests was refused, and leaves no block behind. -/
theorem parseWithOptsIn_run
    (granted : Nat → Bool)
    (value : Bytes)
    (requireNullTerminated : Bool)
    (heap : Heap Unit) :
    (∃ error, parseWithOptsIn granted value requireNullTerminated heap =
          .error (.parse error) ∧
        CJSON.parseWithOpts value requireNullTerminated = .error error ∧
        ∀ ep, error ≠ .malformed ep) ∨
      ∃ result ep after,
        parseWithOptsIn granted value requireNullTerminated heap =
          .ok ((result, ep), after) ∧
        ((∃ tree ending, result = some tree ∧ ep = .ok ending ∧
            CJSON.parseWithOpts value requireNullTerminated =
              .ok (tree.erase, ending) ∧
            Heap.Gains (ledger tree.blocks) heap after ∧
            ∃ final, tree.delete LedgerFault.freedBlock after = .ok ((), final) ∧
              final.contents = heap.contents) ∨
          (result = none ∧ after.contents = heap.contents ∧
            ((∃ text, ep = .error (some text) ∧
                CJSON.parseWithOpts value requireNullTerminated =
                  .error (.malformed text)) ∨
              (ep = .error none ∧ Heap.Refused granted heap after)))) := by
  rcases parseWithOptsIn_ends granted value requireNullTerminated heap with
    failed | ⟨result, ep, after, ran, -⟩
  · exact .inl failed
  refine .inr ⟨result, ep, after, ran, ?_⟩
  -- The run is the same if all requests but its own are granted.
  have ranWithin := (ownAnswers_parseWithOptsIn value requireNullTerminated).run_within ran
  rcases parseWithOptsIn_ends (Heap.answersWithin granted heap after) value
    requireNullTerminated heap with ⟨error, failed, -⟩ | ⟨_, _, _, ranAgain, given⟩
  · cases ranWithin.symm.trans failed
  · cases ranWithin.symm.trans ranAgain
    refine given.imp_right fun null => ⟨null.1, null.2.1, null.2.2.imp_right fun refused => ?_⟩
    exact ⟨refused.1, Heap.refused_of_within refused.2⟩

end StoredItem
end ProtobufSandbox
