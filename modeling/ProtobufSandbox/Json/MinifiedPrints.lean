import ProtobufSandbox.Json.Minify

/-!
# Minified printed texts

The formatted and the unformatted text of a tree are the same to `cJSON_Minify`: from
either it keeps the unformatted one.
-/

namespace ProtobufSandbox

/-- A part of a text leads from one place to another, and this is kept of it. -/
def Leads (place : Place) (text out : Bytes) (next : Place) : Prop :=
  ∀ rest, minifiedFrom place (text ++ rest) = (out ++ ·) <$> minifiedFrom next rest

theorem leads_nil (place : Place) : Leads place [] [] place :=
  fun rest => (Option.map_id' (x := minifiedFrom place rest)).symm

theorem Leads.append
    {place middle next : Place}
    {first second firstOut secondOut : Bytes}
    (firstLeads : Leads place first firstOut middle)
    (secondLeads : Leads middle second secondOut next) :
    Leads place (first ++ second) (firstOut ++ secondOut) next := by
  intro rest
  rw [List.append_assoc, firstLeads, secondLeads, Option.map_eq_map, Option.map_eq_map,
    Option.map_eq_map, Option.map_map]
  congr 1
  funext out
  exact (List.append_assoc _ _ _).symm

/-- Parts of a text of which none leaves a place. -/
theorem leads_flatMap
    {α : Type}
    {place : Place}
    {items : List α}
    {text out : α → Bytes}
    (leads : ∀ item ∈ items, Leads place (text item) (out item) place) :
    Leads place (items.flatMap text) (items.flatMap out) place := by
  induction items with
  | nil => exact leads_nil place
  | cons item items inductionHypothesis =>
      obtain ⟨first, others⟩ := List.forall_mem_cons.mp leads
      exact first.append (inductionHypothesis others)

theorem leads_bytes
    {place : Place}
    {text : Bytes}
    (leads : ∀ byte ∈ text, Leads place [byte] [byte] place) :
    Leads place text text place := by
  have flat := leads_flatMap leads
  rw [List.flatMap_singleton'] at flat
  exact flat

/-- A byte that is neither blank nor begins a string or comment. -/
def Plain (byte : UInt8) : Prop :=
  ¬ IsDropped byte ∧ byte ≠ slash ∧ byte ≠ quote

instance : DecidablePred Plain :=
  fun byte => inferInstanceAs (Decidable (¬ IsDropped byte ∧ byte ≠ slash ∧ byte ≠ quote))

theorem minifiedFrom_plain
    {byte : UInt8}
    (plain : Plain byte)
    (text : Bytes) :
    minifiedFrom .outside (byte :: text) = (byte :: ·) <$> minifiedFrom .outside text := by
  obtain ⟨visible, noComment, noString⟩ := plain
  rw [minifiedFrom, if_neg visible, if_neg (fun both => noComment both.1),
    if_neg (fun both => noComment both.1), if_neg noString]

theorem leads_plain
    {text : Bytes}
    (plain : ∀ byte ∈ text, Plain byte) :
    Leads .outside text text .outside :=
  leads_bytes fun byte present => minifiedFrom_plain (plain byte present)

theorem leads_dropped
    {text : Bytes}
    (dropped : ∀ byte ∈ text, IsDropped byte) :
    Leads .outside text [] .outside := by
  induction text with
  | nil => exact leads_nil .outside
  | cons byte text inductionHypothesis =>
      obtain ⟨first, others⟩ := List.forall_mem_cons.mp dropped
      intro rest
      rw [← inductionHypothesis others rest, List.cons_append, minifiedFrom, if_pos first]

/-- A byte of a string that needs no escape. -/
def Unescaped (byte : UInt8) : Prop :=
  byte ≠ quote ∧ byte ≠ backslash

instance : DecidablePred Unescaped :=
  fun byte => inferInstanceAs (Decidable (byte ≠ quote ∧ byte ≠ backslash))

theorem leads_unescaped
    {text : Bytes}
    (unescaped : ∀ byte ∈ text, Unescaped byte) :
    Leads .string text text .string := by
  refine leads_bytes fun byte present rest => ?_
  obtain ⟨stays, visible⟩ := unescaped byte present
  rw [List.cons_append, minifiedFrom, if_neg stays, if_neg visible]
  rfl

theorem leads_escaped (byte : UInt8) :
    Leads .string [backslash, byte] [backslash, byte] .string := by
  intro rest
  rw [List.cons_append, minifiedFrom, if_neg (by decide), if_pos rfl, List.cons_append,
    minifiedFrom, Option.map_eq_map, Option.map_eq_map, Option.map_map]
  rfl

theorem leads_opening : Leads .outside [quote] [quote] .string := by
  intro rest
  rw [List.cons_append, minifiedFrom, if_neg (by decide),
    if_neg fun both => absurd both.1 (by decide),
    if_neg fun both => absurd both.1 (by decide), if_pos rfl]
  rfl

theorem leads_closing : Leads .string [quote] [quote] .outside := by
  intro rest
  rw [List.cons_append, minifiedFrom, if_pos rfl]
  rfl

/-- A byte is printed as it is, or as a backslash with bytes that need no escape
behind the next one. -/
theorem escape_cases :
    ∀ token : UInt8, (escape token = [token] ∧ Unescaped token) ∨
      ((escape token).take 1 = [backslash] ∧ ((escape token).drop 1).length ≠ 0 ∧
        ∀ byte ∈ (escape token).drop 2, Unescaped byte) := by
  have checked : ∀ token : UInt8, (escape token = [token] ∧ Unescaped token) ∨
      ((escape token).take 1 = [backslash] ∧ ((escape token).drop 1).length ≠ 0 ∧
        ((escape token).drop 2).all (fun byte => decide (Unescaped byte)) = true) :=
    forall_byte (by decide)
  intro token
  rcases checked token with plain | ⟨first, some, others⟩
  · exact .inl plain
  · exact .inr ⟨first, some, forall_mem_of_all others⟩

theorem leads_escape (token : UInt8) :
    Leads .string (escape token) (escape token) .string := by
  rcases escape_cases token with ⟨printed, unescaped⟩ | ⟨first, present, unescaped⟩
  · rw [printed]
    exact leads_unescaped (by simpa using unescaped)
  · generalize escape token = bytes at first present unescaped
    match bytes with
    | [] | [_] => simp at present
    | byte :: second :: bytes =>
        obtain rfl : byte = backslash := by simpa using first
        exact (leads_escaped second).append (leads_unescaped unescaped)

theorem leads_printStringPtr (str : Option CString) :
    Leads .outside (CJSON.printStringPtr str) (CJSON.printStringPtr str) .outside := by
  cases str with
  | none => exact leads_nil .outside
  | some str =>
      exact leads_opening.append
        ((leads_flatMap fun token _ => leads_escape token).append leads_closing)

/-- The bytes of a numeral. -/
def IsNumeral (byte : UInt8) : Prop :=
  Decimal.isDigit byte = true ∨ byte = minus ∨ byte = point ∨ byte ∈ ascii ['e', 'E', '+']

instance : DecidablePred IsNumeral :=
  fun byte => inferInstanceAs (Decidable
    (Decimal.isDigit byte = true ∨ byte = minus ∨ byte = point ∨ byte ∈ ascii ['e', 'E', '+']))

theorem isNumeral_plain : ∀ byte : UInt8, IsNumeral byte → Plain byte :=
  forall_byte (by decide)

theorem isNumeral_printNumber
    (item : CJSON) :
    ∀ byte ∈ item.printNumber, IsNumeral byte := by
  have digits (value : Nat) : ∀ byte ∈ Decimal.digits value, IsNumeral byte :=
    fun byte present => .inl (Decimal.isDigit_of_mem_digits present)
  have sign (number : Rat) : ∀ byte ∈ signOf number, IsNumeral byte := by
    unfold signOf
    split <;> exact forall_mem_of_all (by decide)
  have letter (exponent : Int) : ∀ byte ∈
      ascii ['e', if exponent < 0 then '-' else '+'], IsNumeral byte := by
    split <;> exact forall_mem_of_all (by decide)
  have filled (width value : Nat) : ∀ byte ∈ padded width value, IsNumeral byte := by
    intro byte present
    rcases List.mem_append.mp present with zero | digit
    · rw [List.eq_of_mem_replicate zero]
      decide
    · exact digits value byte digit
  have isPoint : IsNumeral point := by decide
  have isMinus : IsNumeral minus := by decide
  rw [CJSON.printNumber]
  split_ifs
  · unfold formatInt
    split
    · exact List.forall_mem_cons.mpr ⟨isMinus, digits _⟩
    · exact digits _
  · exact List.forall_mem_append.mpr ⟨sign _, digits _⟩
  · simp only [formatExponent, List.forall_mem_append, List.forall_mem_cons]
    exact ⟨⟨⟨⟨sign _, digits _⟩, isPoint, filled _ _⟩, letter _⟩, filled _ _⟩
  · simp only [formatFixed, List.forall_mem_append, List.forall_mem_cons]
    exact ⟨⟨sign _, digits _⟩, isPoint, filled _ _⟩

/-- Entries with what separates them. -/
theorem leads_compose
    {α : Type}
    {items : List α}
    {separator separatorOut : Bytes}
    {text out : α → Bytes}
    (separates : Leads .outside separator separatorOut .outside)
    (leads : ∀ item ∈ items, Leads .outside (text item) (out item) .outside) :
    Leads .outside (CJSON.compose separator (items.map text))
      (CJSON.compose separatorOut (items.map out)) .outside := by
  cases items with
  | nil => exact leads_nil .outside
  | cons first items =>
      obtain ⟨firstLeads, others⟩ := List.forall_mem_cons.mp leads
      rw [List.map_cons, List.map_cons, CJSON.compose_cons, CJSON.compose_cons,
        List.flatMap_map, List.flatMap_map]
      exact firstLeads.append
        (leads_flatMap fun item present => separates.append (others item present))

/-- The blanks of a formatted text are dropped. -/
theorem leads_if_dropped
    {text : Bytes}
    (dropped : ∀ byte ∈ text, IsDropped byte)
    (fmt : Bool) :
    Leads .outside (if fmt then text else []) [] .outside := by
  cases fmt with
  | false => exact leads_nil .outside
  | true => exact leads_dropped dropped

theorem isDropped_replicate (count : Nat) :
    ∀ byte ∈ List.replicate count tab, IsDropped byte := by
  intro byte present
  rw [List.eq_of_mem_replicate present]
  decide

theorem leads_printArray
    {items : List CJSON}
    {text out : CJSON → Bytes}
    (leads : ∀ item ∈ items, Leads .outside (text item) (out item) .outside)
    (fmt : Bool) :
    Leads .outside (CJSON.printArray (items.map text) fmt)
      (CJSON.printArray (items.map out) false) .outside := by
  have opening : Leads .outside [openBracket] [openBracket] .outside :=
    leads_plain (forall_mem_of_all (by decide))
  have closing : Leads .outside [closeBracket] [closeBracket] .outside :=
    leads_plain (forall_mem_of_all (by decide))
  have separator : Leads .outside [comma] [comma] .outside := leads_plain (forall_mem_of_all (by decide))
  have separates := separator.append
    (@leads_if_dropped [space] (forall_mem_of_all (by decide)) fmt)
  exact opening.append ((leads_compose separates leads).append closing)

theorem leads_printMember
    {name entry nameOut entryOut : Bytes}
    (nameLeads : Leads .outside name nameOut .outside)
    (entryLeads : Leads .outside entry entryOut .outside)
    (depth other : Nat)
    (fmt : Bool) :
    Leads .outside (CJSON.printMember depth fmt (name, entry))
      (CJSON.printMember other false (nameOut, entryOut)) .outside := by
  have separator : Leads .outside [colon] [colon] .outside := leads_plain (forall_mem_of_all (by decide))
  exact (leads_if_dropped (isDropped_replicate depth) fmt).append
    (nameLeads.append (separator.append
      ((@leads_if_dropped [tab] (forall_mem_of_all (by decide)) fmt).append entryLeads)))

theorem leads_printObject
    {items : List CJSON}
    {text out : CJSON → Bytes}
    (leads : ∀ item ∈ items, Leads .outside (text item) (out item) .outside)
    (depth other : Nat)
    (fmt : Bool) :
    Leads .outside
      (CJSON.printObject (items.map fun item => (CJSON.printStringPtr item.string, text item))
        depth fmt)
      (CJSON.printObject (items.map fun item => (CJSON.printStringPtr item.string, out item))
        other false) .outside := by
  have opening : Leads .outside [openBrace] [openBrace] .outside := leads_plain (forall_mem_of_all (by decide))
  have closing : Leads .outside [closeBrace] [closeBrace] .outside :=
    leads_plain (forall_mem_of_all (by decide))
  have separator : Leads .outside [comma] [comma] .outside := leads_plain (forall_mem_of_all (by decide))
  have lineEnd := @leads_if_dropped [newline] (forall_mem_of_all (by decide)) fmt
  have indented (count : Nat) := leads_if_dropped (isDropped_replicate count) fmt
  unfold CJSON.printObject
  simp only [List.map_eq_nil_iff, List.map_map]
  by_cases empty : items = []
  · rw [if_pos empty, if_pos empty]
    exact opening.append ((lineEnd.append (indented _)).append closing)
  · rw [if_neg empty, if_neg empty]
    have members := leads_compose (separator.append lineEnd) fun item present =>
      leads_printMember (leads_printStringPtr item.string) (leads item present) (depth + 1)
        (other + 1) fmt
    exact opening.append
      ((((lineEnd.append members).append lineEnd).append (indented _)).append closing)

/-- Of a printed tree the unformatted text is kept. -/
theorem leads_printValue
    (item : CJSON)
    (depth other : Nat)
    (fmt : Bool) :
    Leads .outside (item.printValue depth fmt) (item.printValue other false) .outside := by
  induction item using CJSON.induction generalizing depth other with
  | node item inductionHypothesis =>
      cases type : item.type with
      | false =>
          rw [CJSON.printValue_false depth fmt type, CJSON.printValue_false other false type]
          exact leads_plain (forall_mem_of_all (by decide))
      | true =>
          rw [CJSON.printValue_true depth fmt type, CJSON.printValue_true other false type]
          exact leads_plain (forall_mem_of_all (by decide))
      | null =>
          rw [CJSON.printValue_null depth fmt type, CJSON.printValue_null other false type]
          exact leads_plain (forall_mem_of_all (by decide))
      | number =>
          rw [CJSON.printValue_number depth fmt type, CJSON.printValue_number other false type]
          exact leads_plain fun byte present =>
            isNumeral_plain byte (isNumeral_printNumber item byte present)
      | string =>
          rw [CJSON.printValue_string depth fmt type, CJSON.printValue_string other false type]
          exact leads_printStringPtr item.valuestring
      | array =>
          rw [CJSON.printValue_array depth fmt type, CJSON.printValue_array other false type]
          exact leads_printArray
            (fun child present => inductionHypothesis child present _ _) fmt
      | object =>
          rw [CJSON.printValue_object depth fmt type, CJSON.printValue_object other false type]
          exact leads_printObject
            (fun child present => inductionHypothesis child present _ _) depth other fmt

theorem minified_printValue
    (item : CJSON)
    (depth : Nat)
    (fmt : Bool) :
    minified (item.printValue depth fmt) = some item.printUnformatted := by
  have leads := leads_printValue item depth 0 fmt []
  rw [List.append_nil] at leads
  rw [minified, leads, CJSON.printUnformatted]
  simp [minifiedFrom]

/-- `cJSON_Minify` makes what `cJSON_PrintUnformatted` prints of a tree out of what
`cJSON_Print` prints of it, and leaves what is printed unformatted as it is. -/
theorem minifyIn_print
    (item : CJSON)
    (slack : Bytes) :
    (∃ stale, minifyIn (item.print ++ 0 :: slack) =
        .ok (item.printUnformatted ++ 0 :: (stale ++ slack)) ∧
      item.printUnformatted.length + stale.length = item.print.length) ∧
      minifyIn (item.printUnformatted ++ 0 :: slack) =
        .ok (item.printUnformatted ++ 0 :: slack) := by
  have minifies (depth : Nat) (fmt : Bool) :
      ∃ stale, minifyIn (item.printValue depth fmt ++ 0 :: slack) =
          .ok (item.printUnformatted ++ 0 :: (stale ++ slack)) ∧
        item.printUnformatted.length + stale.length = (item.printValue depth fmt).length := by
    have kept := minified_printValue item depth fmt
    rcases minifyIn_run ⟨_, item.zero_not_mem_printValue depth fmt⟩ slack with
      ⟨out, stale, same, -, lengths, ran⟩ | ⟨ends, -⟩
    · obtain rfl : out = item.printUnformatted := Option.some.inj (same.symm.trans kept)
      exact ⟨stale, ran, lengths⟩
    · rw [kept] at ends
      cases ends
  refine ⟨minifies 0 true, ?_⟩
  obtain ⟨stale, ran, lengths⟩ := minifies 0 false
  obtain rfl : stale = [] := List.length_eq_zero_iff.mp (Nat.add_left_cancel lengths)
  exact ran

end ProtobufSandbox
