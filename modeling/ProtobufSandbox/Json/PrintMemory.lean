import ProtobufSandbox.Foundation.Heap
import ProtobufSandbox.Json.NumberWidths

/-!
# The memory of the printers

`print_value` and the functions it calls, with every block they allocate, write,
read and free. A request for a block may be refused at any time. The pointers in
`entries` and `names` are kept in a list beside their blocks, and consecutive
writes through a pointer are one write.
-/

namespace ProtobufSandbox

/-- How a use of memory can go wrong. -/
inductive MemoryFault where
  /-- A block is used that is not allocated. -/
  | freedBlock
  /-- A read or a write behind the end of a block. -/
  | outOfBounds
  /-- A read of a `char` that was never written. -/
  | uninitialised
  | nullPointer
  deriving DecidableEq

/-- The `char`s of a block, as far as they were written. -/
abbrev Cells := List (Option UInt8)

/-- A computation on blocks of `char`s. -/
abbrev MemoryAction (β : Type) := Heap.Action Cells MemoryFault β

/-- `cJSON_malloc` for that many bytes. -/
def mallocChars (granted : Nat → Bool) (size : Nat) : MemoryAction (Option Block) :=
  Heap.malloc granted (List.replicate size none)

/-- `cJSON_free`, if the pointer is not null. -/
def freeIf : Option Block → MemoryAction Unit
  | none => pure ()
  | some block => Heap.free .freedBlock block

/-- Write bytes into a block, from a position on. -/
def write (block : Block) (ptr : Nat) (bytes : Bytes) : MemoryAction Unit := do
  let cells ← Heap.load .freedBlock block
  if ptr + bytes.length ≤ cells.length then
    Heap.store .freedBlock block
      (cells.take ptr ++ (bytes.map some ++ cells.drop (ptr + bytes.length)))
  else Heap.fail .outOfBounds

/-- The C string at the start of a block. -/
def stringIn : Cells → Except MemoryFault Bytes
  | [] => .error .outOfBounds
  | none :: _ => .error .uninitialised
  | some byte :: cells =>
      if byte = 0 then .ok [] else (stringIn cells).map (byte :: ·)

/-- The C string that a pointer points to. -/
def readString : Option Block → MemoryAction Bytes
  | none => Heap.fail .nullPointer
  | some block => do
      let cells ← Heap.load .freedBlock block
      match stringIn cells with
      | .ok text => return text
      | .error fault => Heap.fail fault

/-- `strcpy(ptr, source); ptr += strlen(source)`. -/
def copyInto (out : Block) (ptr : Nat) (source : Option Block) : MemoryAction Nat := do
  let text ← readString source
  write out ptr (text ++ [0])
  return ptr + text.length

/-- A block of that size, with a text written into it. -/
def newString
    (granted : Nat → Bool)
    (size : Nat)
    (text : Bytes) : MemoryAction (Option Block) := do
  match ← mallocChars granted size with
  | none => return none
  | some str =>
      write str 0 (text ++ [0])
      return some str

/-- `cJSON_strdup`. -/
def strdup (granted : Nat → Bool) (str : Bytes) : MemoryAction (Option Block) :=
  newString granted (str.length + 1) str

/-- `sizeof(char*)`. -/
def sizeofPointer : Nat := 8

/-- An array of null pointers. -/
def mallocPointers
    (granted : Nat → Bool)
    (numentries : Nat) : MemoryAction (Option Block) := do
  match ← mallocChars granted (numentries * sizeofPointer) with
  | none => return none
  | some block =>
      write block 0 (List.replicate (numentries * sizeofPointer) 0)
      return some block

/-- The letter behind the backslash, for a byte that has one. -/
def escapeLetter? (token : UInt8) : Option UInt8 :=
  if token = backslash then some backslash
  else if token = quote then some quote
  else if token = 0x08 then some (UInt8.ofNat 'b'.toNat)
  else if token = 0x0C then some (UInt8.ofNat 'f'.toNat)
  else if token = newline then some (UInt8.ofNat 'n'.toNat)
  else if token = carriageReturn then some (UInt8.ofNat 'r'.toNat)
  else if token = tab then some (UInt8.ofNat 't'.toNat)
  else none

/-- The first loop of `print_string_ptr`. -/
def escapedLength : Bytes → Nat
  | [] => 0
  | token :: ptr =>
      escapedLength ptr + 1 +
        if token ∈ [quote, backslash, 0x08, 0x0C, newline, carriageReturn, tab] then 1
        else if token < 32 then 5
        else 0

/-- The second loop of `print_string_ptr`. -/
def writeEscaped (out : Block) : Nat → Bytes → MemoryAction Nat
  | ptr2, [] => return ptr2
  | ptr2, token :: ptr =>
      if 31 < token ∧ token ≠ quote ∧ token ≠ backslash then do
        write out ptr2 [token]
        writeEscaped out (ptr2 + 1) ptr
      else do
        write out ptr2 [backslash]
        match escapeLetter? token with
        | some letter =>
            write out (ptr2 + 1) [letter]
            writeEscaped out (ptr2 + 2) ptr
        | none =>
            write out (ptr2 + 1)
              (ascii ['u', '0', '0'] ++
                [lowerHex (token / 16), lowerHex (token % 16)] ++ [0])
            writeEscaped out (ptr2 + 6) ptr

namespace CJSON

variable (granted : Nat → Bool)

/-- `print_number`. -/
def printNumberIn (item : CJSON) : MemoryAction (Option Block) :=
  let d := item.valuedouble
  if |(item.valueint.toInt : Rat) - d| ≤ dblEpsilon ∧
      d ≤ Int32.maxValue.toInt ∧ Int32.minValue.toInt ≤ d then
    newString granted 21 (formatInt item.valueint)
  else
    newString granted 64
      (if |(d.floor : Rat) - d| ≤ dblEpsilon ∧ |d| < 10 ^ 60 then formatWhole d
      else if |d| < 1 / 10 ^ 6 ∨ 10 ^ 9 < |d| then formatExponent d
      else formatFixed d)

/-- `print_string_ptr`. -/
def printStringPtrIn : Option CString → MemoryAction (Option Block)
  | none => strdup granted []
  | some str => do
      match ← mallocChars granted (escapedLength str.val + 3) with
      | none => return none
      | some out =>
          write out 0 [quote]
          let ptr2 ← writeEscaped out 1 str.val
          write out ptr2 [quote, 0]
          return some out

/-- The loop that composes an array. -/
def composeElements
    (fmt : Bool)
    (out : Block) : Nat → List (Option Block) → MemoryAction Nat
  | ptr, [] => return ptr
  | ptr, entry :: entries => do
      let ptr ← copyInto out ptr entry
      let separator := comma :: if fmt then [space] else []
      if entries = [] then
        freeIf entry
        return ptr
      else
        write out ptr (separator ++ [0])
        freeIf entry
        composeElements fmt out (ptr + separator.length) entries

/-- The rest of `print_array`, once its entries are printed. -/
def finishArray
    (fmt : Bool)
    (entries : Block)
    (results : List (Option Block))
    (len : Nat)
    (fail : Bool) : MemoryAction (Option Block) := do
  match ← if fail then pure none else mallocChars granted len with
  | none =>
      results.forM freeIf
      Heap.free .freedBlock entries
      return none
  | some out =>
      write out 0 [openBracket, 0]
      let ptr ← composeElements fmt out 1 results
      Heap.free .freedBlock entries
      write out ptr [closeBracket, 0]
      return some out

/-- The loop that composes an object. -/
def composeMembers
    (depth : Nat)
    (fmt : Bool)
    (out : Block) : Nat → List (Option Block × Option Block) → MemoryAction Nat
  | ptr, [] => return ptr
  | ptr, (name, entry) :: entries => do
      let indent := if fmt then List.replicate depth tab else []
      write out ptr indent
      let ptr ← copyInto out (ptr + indent.length) name
      let gap := colon :: if fmt then [tab] else []
      write out ptr gap
      let ptr ← copyInto out (ptr + gap.length) entry
      let lineEnd := (if entries = [] then [] else [comma]) ++
        if fmt then [newline] else []
      write out ptr (lineEnd ++ [0])
      freeIf name
      freeIf entry
      composeMembers depth fmt out (ptr + lineEnd.length) entries

/-- The pointers in `names` and `entries`, one after the other. -/
def pointers (results : List (Option Block × Option Block)) : List (Option Block) :=
  results.flatMap fun result => [result.1, result.2]

/-- The rest of `print_object`, once its names and entries are printed. -/
def finishObject
    (depth : Nat)
    (fmt : Bool)
    (entries names : Block)
    (results : List (Option Block × Option Block))
    (len : Nat)
    (fail : Bool) : MemoryAction (Option Block) := do
  match ← if fail then pure none else mallocChars granted len with
  | none =>
      (pointers results).forM freeIf
      Heap.free .freedBlock names
      Heap.free .freedBlock entries
      return none
  | some out =>
      let lineEnd := if fmt then [newline] else []
      write out 0 (openBrace :: lineEnd ++ [0])
      let ptr ← composeMembers depth fmt out (1 + lineEnd.length) results
      Heap.free .freedBlock names
      Heap.free .freedBlock entries
      let indent := if fmt then List.replicate (depth - 1) tab else []
      write out ptr (indent ++ [closeBrace, 0])
      return some out

mutual

/-- `print_value`. -/
def printValueIn : CJSON → Nat → Bool → MemoryAction (Option Block)
  | ⟨child, type, valuestring, valueint, valuedouble, string⟩, depth, fmt =>
      match type with
      | .null => strdup granted (ascii ['n', 'u', 'l', 'l'])
      | .false => strdup granted (ascii ['f', 'a', 'l', 's', 'e'])
      | .true => strdup granted (ascii ['t', 'r', 'u', 'e'])
      | .number =>
          printNumberIn granted
            ⟨child, .number, valuestring, valueint, valuedouble, string⟩
      | .string => printStringPtrIn granted valuestring
      | .array =>
          if child.length = 0 then
            newString granted 3 [openBracket, closeBracket]
          else do
            match ← mallocPointers granted child.length with
            | none => return none
            | some entries =>
                let (results, len, fail) ← printElements child (depth + 1) fmt 5
                finishArray granted fmt entries results len fail
      | .object =>
          if child.length = 0 then
            newString granted (if fmt then depth + 4 else 3)
              (openBrace :: ((if fmt then newline :: List.replicate (depth - 1) tab
                else []) ++ [closeBrace]))
          else do
            match ← mallocChars granted (child.length * sizeofPointer) with
            | none => return none
            | some entries =>
                match ← mallocChars granted (child.length * sizeofPointer) with
                | none =>
                    Heap.free .freedBlock entries
                    return none
                | some names =>
                    let zeros := List.replicate (child.length * sizeofPointer) 0
                    write entries 0 zeros
                    write names 0 zeros
                    let depth := depth + 1
                    let (results, len, fail) ←
                      printMembers child depth fmt (7 + if fmt then depth else 0)
                    finishObject granted depth fmt entries names results len fail

/-- The loop of `print_array` that prints the entries; it ends when one fails. -/
def printElements :
    List CJSON → Nat → Bool → Nat → MemoryAction (List (Option Block) × Nat × Bool)
  | [], _, _, len => return ([], len, false)
  | child :: children, depth, fmt, len => do
      match ← printValueIn child depth fmt with
      | none => return (none :: List.replicate children.length none, len, true)
      | some ret =>
          let text ← readString (some ret)
          let (results, len, fail) ←
            printElements children depth fmt
              (len + text.length + 2 + if fmt then 1 else 0)
          return (some ret :: results, len, fail)

/-- The loop of `print_object` that prints the names and entries; it does not
end when one fails. -/
def printMembers :
    List CJSON → Nat → Bool → Nat →
      MemoryAction (List (Option Block × Option Block) × Nat × Bool)
  | [], _, _, len => return ([], len, false)
  | child :: children, depth, fmt, len => do
      let str ← printStringPtrIn granted child.string
      let ret ← printValueIn child depth fmt
      if str.isSome ∧ ret.isSome then
        let entry ← readString ret
        let name ← readString str
        let (results, len, fail) ←
          printMembers children depth fmt
            (len + entry.length + name.length + 2 + if fmt then 2 + depth else 0)
        return ((str, ret) :: results, len, fail)
      else
        let (results, len, _) ← printMembers children depth fmt len
        return ((str, ret) :: results, len, true)

end

end CJSON

open Heap (Spec)

/-! ## Strings in blocks -/

theorem stringIn_append
    {text : Bytes}
    (nonzero : (0 : UInt8) ∉ text)
    (cells : Cells) :
    stringIn (text.map some ++ some 0 :: cells) = .ok text := by
  induction text with
  | nil => rfl
  | cons byte text inductionHypothesis =>
      rw [List.mem_cons, not_or] at nonzero
      obtain ⟨byteNonzero, restNonzero⟩ := nonzero
      rw [List.map_cons, List.cons_append, stringIn, if_neg (Ne.symm byteNonzero),
        inductionHypothesis restNonzero]
      rfl

/-- A block of that size that begins with the bytes. -/
structure Written (text : Bytes) (size : Nat) (cells : Cells) : Prop where
  length_eq : cells.length = size
  begins : text.map some <+: cells

theorem written_nil (size : Nat) : Written [] size (List.replicate size none) where
  length_eq := List.length_replicate
  begins := List.nil_prefix

theorem Written.of_append
    {text more : Bytes}
    (written : Written (text ++ more) size cells) :
    Written text size cells where
  length_eq := written.length_eq
  begins := by
    refine List.IsPrefix.trans ?_ written.begins
    rw [List.map_append]
    exact List.prefix_append _ _

theorem Written.stringIn_eq
    (written : Written (text ++ [0]) size cells)
    (nonzero : (0 : UInt8) ∉ text) :
    stringIn cells = .ok text := by
  obtain ⟨rest, rfl⟩ := written.begins
  rw [List.map_append, List.append_assoc]
  exact stringIn_append nonzero rest

/-- The bytes are written behind the text that is in the block. -/
theorem Written.append
    (written : Written text size cells)
    (fits : text.length + bytes.length ≤ size) :
    Written (text ++ bytes) size
      (cells.take text.length ++
        (bytes.map some ++ cells.drop (text.length + bytes.length))) := by
  have kept : cells.take text.length = text.map some := by
    obtain ⟨rest, rfl⟩ := written.begins
    exact List.take_left' (List.length_map some)
  have length_eq := written.length_eq
  rw [kept, ← List.append_assoc, ← List.map_append]
  constructor
  · simp only [List.length_append, List.length_map, List.length_drop]
    omega
  · exact List.prefix_append _ _

variable {allowed : MemoryFault → Prop} {others : List (Block × Cells)}
variable {cells : Cells} {text bytes : Bytes} {size ptr : Nat} {out : Block}

/-- The block is owned, with the text at its start. -/
def Wrote
    (out : Block)
    (text : Bytes)
    (size : Nat)
    (others owned : List (Block × Cells)) : Prop :=
  ∃ cells, owned = (out, cells) :: others ∧ Written text size cells

/-- Bytes behind the text that is in a block fit if they do not reach its end. -/
theorem write_spec
    (written : Written text size cells)
    (here : ptr = text.length)
    (fits : text.length + bytes.length ≤ size) :
    Spec allowed ((out, cells) :: others) (write out ptr bytes)
      fun _ owned => Wrote out (text ++ bytes) size others owned := by
  have enough : ptr + bytes.length ≤ cells.length := by
    rw [written.length_eq, here]
    exact fits
  have spec : Spec allowed [(out, cells)] (write out ptr bytes)
      fun _ owned => Wrote out (text ++ bytes) size [] owned := by
    apply Heap.load_spec.bind
    rintro contents owned ⟨rfl, rfl⟩
    rw [if_pos enough]
    apply Heap.store_spec.mono
    rintro - owned rfl
    refine ⟨_, rfl, ?_⟩
    subst here
    exact written.append fits
  apply (spec.frame others).mono
  rintro - owned ⟨own, ⟨cells', rfl, written'⟩, rfl⟩
  exact ⟨cells', rfl, written'⟩

theorem readString_spec
    {source : Block}
    (string : stringIn cells = .ok text) :
    Spec allowed ((source, cells) :: others) (readString (some source))
      fun result owned => result = text ∧ owned = (source, cells) :: others := by
  have spec : Spec allowed [(source, cells)] (readString (some source))
      fun result owned => result = text ∧ owned = [(source, cells)] := by
    apply Heap.load_spec.bind
    rintro contents owned ⟨rfl, rfl⟩
    rw [string]
    exact Spec.pure ⟨rfl, rfl⟩
  apply (spec.frame others).mono
  rintro result owned ⟨own, ⟨rfl, rfl⟩, rfl⟩
  exact ⟨rfl, rfl⟩

/-- A string is copied behind the text that is in another block. -/
theorem copyInto_spec
    {source : Block}
    {sourceCells : Cells}
    {string : Bytes}
    (written : Written text size cells)
    (here : ptr = text.length)
    (read : stringIn sourceCells = .ok string)
    (fits : text.length + string.length < size) :
    Spec allowed ((out, cells) :: (source, sourceCells) :: others)
      (copyInto out ptr (some source))
      fun result owned => result = (text ++ string).length ∧
        Wrote out (text ++ string) size ((source, sourceCells) :: others) owned := by
  have swapped : List.Perm ((out, cells) :: (source, sourceCells) :: others)
      ((source, sourceCells) :: (out, cells) :: others) := .swap _ _ _
  refine Spec.perm ?_ swapped
  apply (readString_spec read).bind
  rintro result owned ⟨rfl, rfl⟩
  refine Spec.perm ?_ swapped.symm
  have room : text.length + (result ++ [0]).length ≤ size := by
    rw [List.length_append, List.length_singleton]
    omega
  apply (write_spec written here room).bind
  rintro - owned ⟨cells', rfl, written'⟩
  refine Spec.pure ⟨by rw [here, List.length_append], cells', rfl, ?_⟩
  rw [← List.append_assoc] at written'
  exact written'.of_append

/-- What a printer returns: a new block with the text, or null if a request was
refused. -/
def GivesText
    (granted : Nat → Bool)
    (text : Bytes)
    (result : Option Block)
    (owned : List (Block × Cells)) : Prop :=
  (result = none ∧ owned = [] ∧ ∃ request, granted request = false) ∨
    ∃ out cells, result = some out ∧ owned = [(out, cells)] ∧
      stringIn cells = .ok text

theorem newString_spec
    (granted : Nat → Bool)
    (nonzero : (0 : UInt8) ∉ text)
    (fits : text.length < size) :
    Spec allowed [] (newString granted size text) (GivesText granted text) := by
  apply Heap.malloc_spec.bind
  rintro result owned (⟨rfl, rfl, refused⟩ | ⟨str, rfl, rfl⟩)
  · exact Spec.pure (.inl ⟨rfl, rfl, refused⟩)
  · have room : ([] : Bytes).length + (text ++ [0]).length ≤ size := by
      simp only [List.length_nil, List.length_append, List.length_singleton]
      omega
    apply (write_spec (written_nil size) rfl room).bind
    rintro - owned ⟨cells, rfl, written⟩
    exact Spec.pure (.inr ⟨str, cells, rfl, rfl, written.stringIn_eq nonzero⟩)

theorem strdup_spec
    (granted : Nat → Bool)
    (nonzero : (0 : UInt8) ∉ text) :
    Spec allowed [] (strdup granted text) (GivesText granted text) :=
  newString_spec granted nonzero (Nat.lt_succ_self _)

/-! ## Escaped strings -/

theorem escape_of_plain
    {token : UInt8}
    (plain : 31 < token ∧ token ≠ quote ∧ token ≠ backslash) :
    escape token = [token] :=
  if_pos plain

theorem escape_of_not_plain :
    ∀ token : UInt8, ¬ (31 < token ∧ token ≠ quote ∧ token ≠ backslash) →
      escape token =
        backslash ::
          (escapeLetter? token).elim
            (ascii ['u', '0', '0'] ++
              [lowerHex (token / 16), lowerHex (token % 16)])
            fun letter => [letter] :=
  forall_byte (by decide)

theorem length_escape :
    ∀ token : UInt8, (escape token).length =
      1 + if token ∈ [quote, backslash, 0x08, 0x0C, newline, carriageReturn, tab]
        then 1 else if token < 32 then 5 else 0 :=
  forall_byte (by decide)

/-- The first loop of `print_string_ptr` finds the length that is needed. -/
theorem escapedLength_eq (str : Bytes) :
    escapedLength str = (str.flatMap escape).length := by
  induction str with
  | nil => rfl
  | cons token str inductionHypothesis =>
      rw [escapedLength, inductionHypothesis, List.flatMap_cons, List.length_append,
        length_escape]
      omega

theorem writeEscaped_spec
    (str : Bytes)
    (written : Written text size cells)
    (here : ptr = text.length)
    (fits : text.length + (str.flatMap escape).length + 1 < size) :
    Spec allowed [(out, cells)] (writeEscaped out ptr str)
      fun result owned => result = (text ++ str.flatMap escape).length ∧
        Wrote out (text ++ str.flatMap escape) size [] owned := by
  induction str generalizing text cells ptr with
  | nil =>
      rw [List.flatMap_nil, List.append_nil]
      exact Spec.pure ⟨here, cells, rfl, written⟩
  | cons token str inductionHypothesis =>
      rw [List.flatMap_cons, List.length_append] at fits
      rw [List.flatMap_cons, ← List.append_assoc]
      rw [writeEscaped]
      apply Spec.ite
      · intro plain
        rw [escape_of_plain plain] at fits ⊢
        apply (write_spec written here (by simp at fits ⊢; omega)).bind
        rintro - owned ⟨cells', rfl, written'⟩
        apply inductionHypothesis written' (by simp [here])
        simp at fits ⊢
        omega
      · intro special
        rw [escape_of_not_plain token special] at fits ⊢
        apply (write_spec written here (by simp at fits ⊢; omega)).bind
        rintro - owned ⟨cells', rfl, written'⟩
        cases letter : escapeLetter? token with
        | some letter =>
            rw [letter, Option.elim_some] at fits
            apply (write_spec written' (by simp [here]) (by simp at fits ⊢; omega)).bind
            rintro - owned ⟨cells'', rfl, written''⟩
            rw [List.append_assoc] at written''
            apply inductionHypothesis written'' (by simp [here])
            simp at fits ⊢
            omega
        | none =>
            rw [letter, Option.elim_none] at fits
            apply (write_spec written' (by simp [here])
              (by simp [ascii] at fits ⊢; omega)).bind
            rintro - owned ⟨cells'', rfl, written''⟩
            rw [← List.append_assoc, List.append_assoc text] at written''
            apply inductionHypothesis written''.of_append (by simp [here, ascii])
            simp [ascii] at fits ⊢
            omega

namespace CJSON

theorem printStringPtrIn_spec (granted : Nat → Bool) (str : Option CString) :
    Spec allowed [] (printStringPtrIn granted str)
      (GivesText granted (printStringPtr str)) := by
  cases str with
  | none => exact strdup_spec granted List.not_mem_nil
  | some str =>
      apply Heap.malloc_spec.bind
      rintro result owned (⟨rfl, rfl, refused⟩ | ⟨out, rfl, rfl⟩)
      · exact Spec.pure (.inl ⟨rfl, rfl, refused⟩)
      rw [escapedLength_eq]
      apply (write_spec (written_nil _) rfl (by simp)).bind
      rintro - owned ⟨cells, rfl, written⟩
      have room : ([quote] : Bytes).length + (str.val.flatMap escape).length + 1 <
          (str.val.flatMap escape).length + 3 := by
        rw [List.length_singleton]
        omega
      apply (writeEscaped_spec str.val written rfl room).bind
      rintro ptr2 owned ⟨here, cells', rfl, written'⟩
      have room' : ([quote] ++ str.val.flatMap escape).length +
          ([quote, 0] : Bytes).length ≤ (str.val.flatMap escape).length + 3 := by
        simp only [List.length_append, List.length_cons, List.length_nil]
        omega
      apply (write_spec written' here room').bind
      rintro - owned ⟨cells'', rfl, written''⟩
      have whole : Written (printStringPtr (some str) ++ [0])
          ((str.val.flatMap escape).length + 3) cells'' := by
        simpa [printStringPtr] using written''
      refine Spec.pure (.inr ⟨out, cells'', rfl, rfl, ?_⟩)
      exact whole.stringIn_eq (zero_not_mem_printStringPtr (some str))

theorem printNumberIn_spec
    (granted : Nat → Bool)
    (item : CJSON)
    (inRange : InDoubleRange item.valuedouble) :
    Spec allowed [] (printNumberIn granted item)
      (GivesText granted item.printNumber) := by
  have nonzero := zero_not_mem_printNumber item
  unfold printNumberIn
  unfold printNumber at nonzero ⊢
  dsimp only at nonzero ⊢
  split_ifs at nonzero ⊢ with near whole extreme
  · exact newString_spec granted nonzero
      (Nat.lt_of_le_of_lt (length_formatInt_le item.valueint) (by decide))
  · exact newString_spec granted nonzero
      (Nat.lt_of_le_of_lt (length_formatWhole_le whole.2) (by decide))
  · exact newString_spec granted nonzero
      (Nat.lt_of_le_of_lt (length_formatExponent_le inRange) (by decide))
  · push Not at extreme
    exact newString_spec granted nonzero
      (Nat.lt_of_le_of_lt (length_formatFixed_le extreme.2) (by decide))

end CJSON
end ProtobufSandbox
