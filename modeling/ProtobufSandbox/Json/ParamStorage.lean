import ProtobufSandbox.Json.RPCObject

/-!
# The storage of parameters

`addParamsMap` copies the text of a string parameter over the old one, in the bytes
that were allocated when the parameter was created. The parameters with their storage
refine those of `addParamsMap`, and the copies stay in their storage exactly if the
parameter that each key finds first was created with a text that is long enough.
-/

namespace ProtobufSandbox

open CJSON

/-- How `strcpy` can miss the storage of a text. -/
inductive StorageError
  /-- There is no storage. -/
  | nullStorage
  /-- More bytes are written than there are. -/
  | overflow (written size : Nat)
  deriving DecidableEq

/-- A parameter and the number of bytes allocated for its text. -/
structure StoredParam where
  item : CJSON
  storage : Option Nat
  fits : Option.Rel (fun text size => text.val.length + 1 ≤ size) item.valuestring storage

namespace StoredParam

/-- An item with the storage that `cJSON_strdup` allocates. -/
def ofItem (item : CJSON) : StoredParam where
  item := item
  storage := item.valuestring.map fun text => text.val.length + 1
  fits := by
    cases item.valuestring with
    | none => exact .none
    | some text => exact .some (Nat.le_refl _)

/-- The parameter that a new key gets. -/
def ofEntry (entry : Bytes × Bytes) : StoredParam :=
  ofItem (paramOf (fun value => createString (CString.ofBuffer value)) entry)

/-- The parameter is named like a key. -/
def like (key : Bytes) (param : StoredParam) : Bool :=
  param.item.namedLike (CString.ofBuffer key)

/-- `strcpy` over the text of a parameter. -/
def strcpy (tmpObj : StoredParam) (value : Bytes) : Except StorageError StoredParam :=
  match tmpObj.storage with
  | none => .error .nullStorage
  | some size =>
      if inside : (CString.ofBuffer value).val.length + 1 ≤ size then
        .ok
          { item := { tmpObj.item with valuestring := some (CString.ofBuffer value) }
            storage := some size
            fits := .some inside }
      else .error (.overflow ((CString.ofBuffer value).val.length + 1) size)

end StoredParam

/-- One turn of the loop of `addParamsMap`: the chain is searched for the key, and the
text of the first parameter that is like it is written, or a new one is added. -/
def addStoredParam (entry : Bytes × Bytes) :
    List StoredParam → Except StorageError (List StoredParam)
  | [] => .ok [.ofEntry entry]
  | param :: next =>
      if param.like entry.1 then (param.strcpy entry.2).map fun written => written :: next
      else (addStoredParam entry next).map fun rest => param :: rest

/-- The loop of `addParamsMap`. -/
def addStoredParams :
    List StoredParam → List (Bytes × Bytes) → Except StorageError (List StoredParam)
  | args, [] => .ok args
  | args, entry :: entries => do addStoredParams (← addStoredParam entry args) entries

/-! ## Copies in their storage -/

/-- The storage that a key finds, if it finds a parameter. -/
def storageFor (key : Bytes) (args : List StoredParam) : Option (Option Nat) :=
  (args.find? (StoredParam.like key)).map StoredParam.storage

/-- The storage that a key finds holds a text. -/
def TextFits (args : List StoredParam) (entry : Bytes × Bytes) : Prop :=
  ∀ storage, storageFor entry.1 args = some storage →
    ∃ size, storage = some size ∧ (CString.ofBuffer entry.2).val.length + 1 ≤ size

/-- A key that the parameter of another key is like finds the same as that key. -/
theorem like_of_like_ofEntry
    {entry : Bytes × Bytes}
    {key : Bytes}
    (like : (StoredParam.ofEntry entry).like key = true)
    (param : StoredParam) :
    param.like key = param.like entry.1 := by
  have same : lowerKey entry = (CString.ofBuffer key).val.map toLower :=
    Option.some.inj ((namedLike_iff _ _).mp like)
  rw [StoredParam.like, StoredParam.like, Bool.eq_iff_iff, namedLike_iff, namedLike_iff,
    ← same]
  rfl

theorem storageFor_cons (key : Bytes) (param : StoredParam) (args : List StoredParam) :
    storageFor key (param :: args) =
      if param.like key then some param.storage else storageFor key args := by
  rw [storageFor, List.find?_cons]
  cases param.like key <;> rfl

theorem storageFor_append (key : Bytes) (first second : List StoredParam) :
    storageFor key (first ++ second) =
      (storageFor key first).or (storageFor key second) := by
  rw [storageFor, List.find?_append, Option.map_or]
  rfl

/-- `strcpy` succeeds in a storage that holds the text. -/
theorem exists_strcpy_iff {param : StoredParam} {value : Bytes} :
    (∃ written, param.strcpy value = .ok written) ↔
      ∃ size, param.storage = some size ∧
        (CString.ofBuffer value).val.length + 1 ≤ size := by
  unfold StoredParam.strcpy
  cases param.storage with
  | none => simp
  | some size =>
      dsimp only
      split
      case isTrue inside => exact iff_of_true ⟨_, rfl⟩ ⟨size, rfl, inside⟩
      case isFalse outside =>
        refine iff_of_false (by simp) ?_
        rintro ⟨other, same, inside⟩
        cases same
        exact outside inside

/-- `strcpy` keeps the name and the storage of a parameter, and writes its text. -/
theorem of_strcpy {param written : StoredParam} {value : Bytes}
    (copied : param.strcpy value = .ok written) :
    updateText value param.item = .ok written.item ∧
      written.item.string = param.item.string ∧ written.storage = param.storage := by
  unfold StoredParam.strcpy at copied
  have fits := param.fits
  cases stored : param.storage with
  | none =>
      rw [stored] at copied
      cases copied
  | some size =>
      rw [stored] at copied fits
      dsimp only at copied
      split at copied
      case isFalse => cases copied
      case isTrue =>
        cases copied
        refine ⟨?_, rfl, rfl⟩
        cases present : param.item.valuestring with
        | none =>
            rw [present] at fits
            cases fits
        | some text => rw [updateText, present]

/-- A turn stays in its storage exactly if the text fits what its key finds. -/
theorem exists_addStoredParam_iff {args : List StoredParam} {entry : Bytes × Bytes} :
    (∃ after, addStoredParam entry args = .ok after) ↔ TextFits args entry := by
  induction args with
  | nil => exact iff_of_true ⟨_, rfl⟩ fun storage found => nomatch found
  | cons param next inductionHypothesis =>
      rw [addStoredParam, TextFits, storageFor_cons]
      cases param.like entry.1 with
      | true =>
          simp only [if_true, Outcome.exists_map_eq_ok_iff, exists_strcpy_iff,
            Option.some.injEq, forall_eq']
      | false =>
          simp only [Bool.false_eq_true, if_false, Outcome.exists_map_eq_ok_iff]
          exact inductionHypothesis

/-- After a turn each key finds the storage that it would find with the parameter of
the entry at the end. -/
theorem storageFor_addStoredParam
    {args after : List StoredParam}
    {entry : Bytes × Bytes}
    (added : addStoredParam entry args = .ok after)
    (key : Bytes) :
    storageFor key after = storageFor key (args ++ [.ofEntry entry]) := by
  induction args generalizing after with
  | nil =>
      cases added
      rfl
  | cons param next inductionHypothesis =>
      rw [addStoredParam] at added
      rw [List.cons_append, storageFor_cons]
      cases like : param.like entry.1 with
      | true =>
          rw [like, if_pos rfl] at added
          obtain ⟨written, copied, rfl⟩ := Outcome.map_eq_ok_iff.mp added
          obtain ⟨-, name, storage⟩ := of_strcpy copied
          have sameName : written.like key = param.like key := by
            rw [StoredParam.like, CJSON.namedLike, name]
            rfl
          rw [storageFor_cons, sameName, storage]
          cases other : param.like key with
          | true => rfl
          | false =>
              -- The key is not like that of the entry, whose parameter it passes.
              have passes : (StoredParam.ofEntry entry).like key = false := by
                rw [Bool.eq_false_iff]
                intro found
                rw [like_of_like_ofEntry found, like] at other
                cases other
              simp [storageFor, List.find?_append, passes]
      | false =>
          rw [like, if_neg Bool.false_ne_true] at added
          obtain ⟨rest, later, rfl⟩ := Outcome.map_eq_ok_iff.mp added
          rw [storageFor_cons, inductionHypothesis later]

/-- The splits of a list at an entry: in front of all others, or behind the first. -/
theorem forall_split_cons_iff
    {first : α}
    {entries : List α}
    {holds : List α → α → Prop} :
    (∀ earlier entry later, first :: entries = earlier ++ entry :: later →
        holds earlier entry) ↔
      holds [] first ∧ ∀ earlier entry later, entries = earlier ++ entry :: later →
        holds (first :: earlier) entry := by
  constructor
  · intro all
    refine ⟨all [] first entries rfl, fun earlier entry later split => ?_⟩
    exact all (first :: earlier) entry later (congrArg (first :: ·) split)
  · rintro ⟨front, behind⟩ earlier entry later split
    cases earlier with
    | nil =>
        obtain ⟨rfl, -⟩ := List.cons.inj split
        exact front
    | cons other earlier =>
        obtain ⟨rfl, rest⟩ := List.cons.inj split
        exact behind earlier entry later rest

/-- The rest of a run, from parameters whose keys find what they find among those given
and those of the entries so far. -/
theorem exists_addStoredParams_iff_of_storageFor
    {args current : List StoredParam}
    {done : List (Bytes × Bytes)}
    (same : ∀ key, storageFor key current =
      storageFor key (args ++ done.map StoredParam.ofEntry))
    (entries : List (Bytes × Bytes)) :
    (∃ after, addStoredParams current entries = .ok after) ↔
      ∀ earlier entry later, entries = earlier ++ entry :: later →
        TextFits (args ++ (done ++ earlier).map StoredParam.ofEntry) entry := by
  induction entries generalizing current done with
  | nil => exact iff_of_true ⟨current, rfl⟩ fun earlier entry later split => by simp at split
  | cons entry entries inductionHypothesis =>
      have front : TextFits (args ++ (done ++ []).map StoredParam.ofEntry) entry ↔
          ∃ after, addStoredParam entry current = .ok after := by
        rw [exists_addStoredParam_iff, TextFits, TextFits, same, List.append_nil]
      rw [@forall_split_cons_iff _ entry entries fun earlier entry =>
          TextFits (args ++ (done ++ earlier).map StoredParam.ofEntry) entry, front,
        addStoredParams]
      cases added : addStoredParam entry current with
      | error error => simp [Bind.bind, Except.bind]
      | ok middle =>
          have agree (key : Bytes) : storageFor key middle =
              storageFor key (args ++ (done ++ [entry]).map StoredParam.ofEntry) := by
            rw [storageFor_addStoredParam added, List.map_append, ← List.append_assoc,
              storageFor_append, storageFor_append _ (args ++ _), same]
            rfl
          rw [Outcome.ok_bind, inductionHypothesis agree]
          simp

/-- A run of turns stays in its storage exactly if each text fits what its key finds
among the parameters given and those of the entries in front. -/
theorem exists_addStoredParams_iff (args : List StoredParam) (entries : List (Bytes × Bytes)) :
    (∃ after, addStoredParams args entries = .ok after) ↔
      ∀ earlier entry later, entries = earlier ++ entry :: later →
        TextFits (args ++ earlier.map StoredParam.ofEntry) entry :=
  @exists_addStoredParams_iff_of_storageFor args args [] (fun key => by simp) entries

/-! ## RPC objects -/

/-- A member that keeps its name is found where the old one was. -/
theorem indexLike_replaceItemInArray
    {object old new : CJSON}
    {which : Nat}
    (there : object.child[which]? = some old)
    (sameName : new.string = old.string)
    (string : CString) :
    (object.replaceItemInArray which new).indexLike string = object.indexLike string := by
  obtain ⟨before, after, split, written, -⟩ := KeyedList.exists_split there new
  have sameLike : new.namedLike string = old.namedLike string := by
    rw [CJSON.namedLike, sameName]
    rfl
  rw [indexLike, indexLike, replaceItemInArray, written, split, List.findIdx?_append,
    List.findIdx?_append, List.findIdx?_cons, List.findIdx?_cons, sameLike]

/-- The key of the parameters. -/
def paramsKey : CString :=
  keyOf ['p', 'a', 'r', 'a', 'm', 's']

/-- An RPC object whose parameters are an object, with the storage of each. -/
structure StoredRPCObj where
  RPCObj : CJSON
  which : Nat
  params : CJSON
  args : List StoredParam
  isObject : RPCObj.type = .object
  present : RPCObj.HasMember paramsKey
  first : RPCObj.indexLike paramsKey = some which
  there : RPCObj.child[which]? = some params
  paramsObject : params.type = .object
  members : params.child = args.map StoredParam.item

namespace StoredRPCObj

/-- An RPC object whose parameters have the storage that `cJSON_strdup` allocates. -/
def ofItem
    {RPCObj params : CJSON}
    {which : Nat}
    (isObject : RPCObj.type = .object)
    (present : RPCObj.HasMember paramsKey)
    (first : RPCObj.indexLike paramsKey = some which)
    (there : RPCObj.child[which]? = some params)
    (paramsObject : params.type = .object) : StoredRPCObj where
  RPCObj := RPCObj
  which := which
  params := params
  args := params.child.map StoredParam.ofItem
  isObject := isObject
  present := present
  first := first
  there := there
  paramsObject := paramsObject
  members := by
    rw [List.map_map]
    exact (List.map_id _).symm

/-- The parameters with other members. -/
def paramsWith (object : StoredRPCObj) (args : List StoredParam) : CJSON :=
  { object.params with child := args.map StoredParam.item }

/-- An RPC object with other parameters. -/
def withArgs (object : StoredRPCObj) (args : List StoredParam) : StoredRPCObj where
  RPCObj := object.RPCObj.replaceItemInArray object.which (object.paramsWith args)
  which := object.which
  params := object.paramsWith args
  args := args
  isObject := object.isObject
  present := by
    have sameName : (object.paramsWith args).name = object.params.name := rfl
    refine ⟨object.present.1, ?_⟩
    rw [CJSON.names, replaceItemInArray, KeyedList.names_set_of_eq object.there sameName]
    exact object.present.2
  first := (indexLike_replaceItemInArray object.there (by rfl) _).trans object.first
  there := List.getElem?_set_self (List.getElem?_eq_some_iff.mp object.there).1
  paramsObject := object.paramsObject
  members := rfl

/-- `addParamsMap(map<string, string>)`. -/
def addParamsMap (object : StoredRPCObj) (Args : StringMap) :
    Except StorageError StoredRPCObj :=
  (addStoredParams object.args Args.entries).map object.withArgs

/-- A sequence of calls of `addParamsMap`. -/
def addParamsMaps : StoredRPCObj → List StringMap → Except StorageError StoredRPCObj
  | object, [] => .ok object
  | object, Args :: calls => do addParamsMaps (← object.addParamsMap Args) calls

end StoredRPCObj

/-! ### Refinement -/

/-- A turn adds a parameter at the end, or writes the first one that the key finds. -/
theorem addStoredParam_cases
    {args after : List StoredParam}
    {entry : Bytes × Bytes}
    (added : addStoredParam entry args = .ok after) :
    (args.findIdx? (StoredParam.like entry.1) = none ∧
        after = args ++ [StoredParam.ofEntry entry]) ∨
      ∃ which param written, args.findIdx? (StoredParam.like entry.1) = some which ∧
        args[which]? = some param ∧ param.strcpy entry.2 = .ok written ∧
        after = args.set which written := by
  induction args generalizing after with
  | nil =>
      cases added
      exact .inl ⟨rfl, rfl⟩
  | cons param next inductionHypothesis =>
      rw [addStoredParam] at added
      rw [List.findIdx?_cons]
      cases like : param.like entry.1 with
      | true =>
          rw [like, if_pos rfl] at added
          obtain ⟨written, copied, rfl⟩ := Outcome.map_eq_ok_iff.mp added
          exact .inr ⟨0, param, written, rfl, rfl, copied, rfl⟩
      | false =>
          rw [like, if_neg Bool.false_ne_true] at added
          obtain ⟨rest, later, rfl⟩ := Outcome.map_eq_ok_iff.mp added
          rcases inductionHypothesis later with
            ⟨none, rfl⟩ | ⟨which, found, written, first, there, copied, rfl⟩
          · exact .inl ⟨by simp [none], rfl⟩
          · exact .inr ⟨which + 1, found, written, by simp [first], there, copied, rfl⟩

/-- Without its storage a turn is one of `addParamsMap`. -/
theorem addParam_of_addStoredParam
    {args after : List StoredParam}
    {params : CJSON}
    {entry : Bytes × Bytes}
    (members : params.child = args.map StoredParam.item)
    (added : addStoredParam entry args = .ok after) :
    addParam (fun value => createString (CString.ofBuffer value)) updateText params entry =
      .ok { params with child := after.map StoredParam.item } := by
  have index : params.indexLike (CString.ofBuffer entry.1) =
      args.findIdx? (StoredParam.like entry.1) := by
    rw [indexLike, members, List.findIdx?_map]
    rfl
  rcases addStoredParam_cases added with
    ⟨none, rfl⟩ | ⟨which, param, written, first, there, copied, rfl⟩
  · rw [addParam, index, none, List.map_append, ← members]
    rfl
  · have item : params.child[which]? = some param.item := by
      rw [members, List.getElem?_map, there, Option.map_some]
    have updated := (of_strcpy copied).1
    rw [addParam, List.map_set, ← members]
    simp only [index, first, item, updated, Outcome.ok_bind, replaceItemInArray]
    rfl

/-- Without its storage a loop is one of `addParamsMap`. -/
theorem addParams_of_addStoredParams
    {args after : List StoredParam}
    {params : CJSON}
    {entries : List (Bytes × Bytes)}
    (members : params.child = args.map StoredParam.item)
    (added : addStoredParams args entries = .ok after) :
    addParams (fun value => createString (CString.ofBuffer value)) updateText params
        entries = .ok { params with child := after.map StoredParam.item } := by
  induction entries generalizing args params with
  | nil =>
      cases added
      obtain ⟨child, type, valuestring, valueint, valuedouble, string⟩ := params
      obtain rfl : child = after.map StoredParam.item := members
      rfl
  | cons entry entries inductionHypothesis =>
      obtain ⟨middle, first, rest⟩ := Outcome.bind_eq_ok_iff.mp added
      rw [addParams, addParam_of_addStoredParam members first, Outcome.ok_bind]
      exact inductionHypothesis rfl rest

theorem addStoredParams_append
    (args : List StoredParam)
    (first second : List (Bytes × Bytes)) :
    addStoredParams args (first ++ second) =
      addStoredParams args first >>= fun middle => addStoredParams middle second := by
  induction first generalizing args with
  | nil => rfl
  | cons entry first inductionHypothesis =>
      rw [List.cons_append, addStoredParams, addStoredParams]
      cases addStoredParam entry args with
      | error error => rfl
      | ok middle => exact inductionHypothesis middle

namespace StoredRPCObj

/-- A call that stays in its storage is a call of `addParamsMap`. -/
theorem addParamsMap_refines
    {object after : StoredRPCObj}
    {Args : StringMap}
    (called : object.addParamsMap Args = .ok after)
    (next : List CJSON) :
    addParamsMapString (object.RPCObj :: next) Args.entries =
      .ok (true, after.RPCObj :: next) := by
  obtain ⟨args, added, rfl⟩ := Outcome.map_eq_ok_iff.mp called
  have asked : doesAttributeExist (object.RPCObj :: next) paramsKey.val false = .ok true := by
    rw [doesAttributeExist_of_container (.inr object.isObject),
      decide_eq_true object.present]
  have first := object.first
  have there := object.there
  have loop := addParams_of_addStoredParams object.members added
  unfold paramsKey at asked first
  rw [addParamsMapString_eq, CJSON.addParamsMap]
  simp only [asked, first, there, loop, Outcome.ok_bind, if_true]
  rfl

/-- The calls of a sequence are one loop over all entries. -/
theorem exists_addParamsMaps_iff (object : StoredRPCObj) (calls : List StringMap) :
    (∃ last, object.addParamsMaps calls = .ok last) ↔
      ∃ after, addStoredParams object.args (calls.flatMap StringMap.entries) =
        .ok after := by
  induction calls generalizing object with
  | nil => exact iff_of_true ⟨object, rfl⟩ ⟨object.args, rfl⟩
  | cons Args calls inductionHypothesis =>
      rw [List.flatMap_cons, addStoredParams_append, addParamsMaps, addParamsMap]
      cases addStoredParams object.args Args.entries with
      | error error => exact iff_of_false (by rintro ⟨_, ⟨⟩⟩) (by rintro ⟨_, ⟨⟩⟩)
      | ok middle => exact inductionHypothesis (object.withArgs middle)

/-- Every copy of a sequence of calls stays in its storage exactly if the parameter
that each key finds first, among those given and those of the entries in front, has a
storage that holds the text. -/
theorem addParamsMaps_inStorage_iff (object : StoredRPCObj) (calls : List StringMap) :
    (∃ last, object.addParamsMaps calls = .ok last) ↔
      ∀ earlier entry later,
        calls.flatMap StringMap.entries = earlier ++ entry :: later →
          TextFits (object.args ++ earlier.map StoredParam.ofEntry) entry :=
  (exists_addParamsMaps_iff object calls).trans (exists_addStoredParams_iff _ _)

/-- The object of a call with one parameter, "x" under the name "a". -/
def sample : StoredRPCObj :=
  @ofItem
    (createObject.addItemToObject paramsKey
      (some (createObject.addItemToObject (keyOf ['a']) (some (createString (keyOf ['x']))))))
    _ 0 rfl (by decide) rfl rfl rfl

/-- A text of two bytes over one of one byte. -/
theorem not_addParamsMaps_inStorage :
    ¬ ∃ last,
      sample.addParamsMaps
        [⟨[(ascii ['a'], ascii ['x', 'y'])], List.pairwise_singleton _ _⟩] = .ok last := by
  rintro ⟨last, called⟩
  cases called

end StoredRPCObj

end ProtobufSandbox
