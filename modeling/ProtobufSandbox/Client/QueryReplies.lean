import ProtobufSandbox.Json.GetAfterSet
import ProtobufSandbox.Json.Shape

/-!
# Replies to queries

The client parses each reply to a query and looks five members up in it. Only the
pointer that the parser returns is tested, so that the replies it survives are those
that have the members it asks for.
-/

namespace ProtobufSandbox
namespace CJSON

/-- `cJSON_GetObjectItem` on a pointer. -/
def getObjectItemAt : List CJSON → CString → Except AttributeError (List CJSON)
  | [], _ => .error .nullItem
  | object :: _, string => .ok (object.getObjectItem string)

/-- The item behind a pointer. -/
def dereference : List CJSON → Except AttributeError CJSON
  | [] => .error .nullItem
  | item :: _ => .ok item

end CJSON

open CJSON

/-- What the client says about a reply. -/
inductive QueryReply
  | received (result_idx : Int32) (contact_radius center_pt_x center_pt_y : Rat)
  | notFound (result_idx : Int32)

/-- The names of the members that the client looks up. -/
def resultKey : CString :=
  keyOf ['r', 'e', 's', 'u', 'l', 't']

def successKey : CString :=
  keyOf ['s', 'u', 'c', 'c', 'e', 's', 's']

def contactRadiusKey : CString :=
  keyOf ['c', 'o', 'n', 't', 'a', 'c', 't', '_', 'r', 'a', 'd', 'i', 'u', 's']

def centerPtXKey : CString :=
  keyOf ['c', 'e', 'n', 't', 'e', 'r', '_', 'p', 't', '_', 'x']

def centerPtYKey : CString :=
  keyOf ['c', 'e', 'n', 't', 'e', 'r', '_', 'p', 't', '_', 'y']

/-- What the loop over queries does with a reply that is parsed, with the count of the
replies without success. -/
def handleReply
    (resp_obj : CJSON)
    (unsuccess_cnt : Nat) : Except AttributeError (QueryReply × Nat) := do
  let result_idx ← getAttributeDefaultInt [resp_obj] (ascii ['i', 'd']) (-1)
  let result_obj ← getObjectItemAt [resp_obj] resultKey
  let success ← dereference (← getObjectItemAt result_obj successKey)
  if success.type = .true then
    let contact_radius ← dereference (← getObjectItemAt result_obj contactRadiusKey)
    let center_pt_x ← dereference (← getObjectItemAt result_obj centerPtXKey)
    let center_pt_y ← dereference (← getObjectItemAt result_obj centerPtYKey)
    return (.received result_idx contact_radius.valuedouble center_pt_x.valuedouble
      center_pt_y.valuedouble, 0)
  else return (.notFound result_idx, unsuccess_cnt + 1)

/-- What the loop over queries does with a line. Nothing is said about an empty one or
one that the parser does not accept. -/
def handleLine
    (line : Bytes)
    (unsuccess_cnt : Nat) : Except AttributeError (Option QueryReply × Nat) :=
  if line = [] then .ok (none, unsuccess_cnt)
  else
    match parse (line ++ [0]) with
    | .ok resp_obj =>
        (handleReply resp_obj unsuccess_cnt).map fun handled => (some handled.1, handled.2)
    | .error (.malformed _) => .ok (none, unsuccess_cnt)
    | .error error => .error (.parser error)

/-- A null item is dereferenced or a null name compared. -/
def AttributeError.IsNull (error : AttributeError) : Prop :=
  error = .nullItem ∨ error = .nullName

/-- The client handles the line without following a null pointer. -/
def Survives (line : Bytes) : Prop :=
  ∀ unsuccess_cnt error, handleLine line unsuccess_cnt = .error error → ¬ error.IsNull

/-- The reply has a result with a success, and with the three numbers if the success is
true. Names are compared ignoring case, and the first member with a name counts. -/
def AnswersQuery (resp_obj : CJSON) : Prop :=
  ∃ result ∈ (resp_obj.getObjectItem resultKey).head?,
    ∃ success ∈ (result.getObjectItem successKey).head?,
      success.type = .true →
        result.getObjectItem contactRadiusKey ≠ [] ∧
          result.getObjectItem centerPtXKey ≠ [] ∧ result.getObjectItem centerPtYKey ≠ []

/-! ## The lookups -/

/-- A loop over attributes fails only on a null name. -/
theorem findAttribute_meets
    (key : Bytes)
    (accepts : CJSONType → Bool)
    (items : List CJSON) :
    Outcome.Meets (· = AttributeError.nullName) (fun _ => True)
      (findAttribute key accepts items) := by
  induction items with
  | nil => trivial
  | cons item items inductionHypothesis =>
      unfold findAttribute
      cases item.string with
      | none => rfl
      | some string =>
          apply Outcome.Meets.ite
          · exact fun _ => trivial
          · exact fun _ => inductionHypothesis.map fun _ _ => trivial

/-- So does the search for the id. -/
theorem getAttributeDefaultInt_meets
    (item : CJSON)
    (key : Bytes)
    (missing : Int32) :
    Outcome.Meets (· = AttributeError.nullName) (fun _ => True)
      (getAttributeDefaultInt [item] key missing) := by
  have further {α β : Type} {outcome : Except AttributeError α} (function : α → β)
      (meets : Outcome.Meets (· = AttributeError.nullName) (fun _ => True) outcome) :
      Outcome.Meets (· = AttributeError.nullName) (fun _ => True)
        (outcome.map function) :=
    meets.map fun _ _ => trivial
  exact further _ (further _ (further _ (findAttribute_meets key isNumber _)))

/-- In a parsed tree only objects have members with names. -/
theorem type_eq_object_of_getObjectItem
    {item : CJSON}
    {string : CString}
    (parsed : item.Parsed)
    (found : item.getObjectItem string ≠ []) :
    item.type = .object := by
  obtain ⟨member, isMember, like⟩ : ∃ member ∈ item.child, member.namedLike string = true := by
    by_contra none
    refine found (List.dropWhile_eq_nil_iff.mpr fun member isMember => ?_)
    rw [Bool.not_eq_true']
    exact Bool.eq_false_iff.mpr fun like => none ⟨member, isMember, like⟩
  obtain ⟨own, named⟩ := exists_name_of_namedLike like
  obtain ⟨own, present, -⟩ := Option.map_eq_some_iff.mp named
  exact parsed.type_eq_object isMember (present ▸ Option.some_ne_none own)

/-- The id of an object with named members is found or not. -/
theorem exists_getAttributeDefaultInt
    {item : CJSON}
    (parsed : item.Parsed)
    (object : item.type = .object)
    (key : Bytes)
    (missing : Int32) :
    ∃ value, getAttributeDefaultInt [item] key missing = .ok value := by
  have starts : subitems isNumber item [] = item.child := subitems_of_object object rfl []
  obtain ⟨found, searched⟩ := @exists_findAttribute key isNumber item.child
    (parsed.node.members object)
  simp only [getAttributeDefaultInt, getAttributeValueInt, getAttribute, starts, searched]
  exact ⟨_, rfl⟩

/-! ## The reply -/

/-- A reply with all that is asked for is handled. -/
theorem exists_handleReply
    {resp_obj : CJSON}
    (parsed : resp_obj.Parsed)
    (answers : AnswersQuery resp_obj)
    (unsuccess_cnt : Nat) :
    ∃ handled, handleReply resp_obj unsuccess_cnt = .ok handled := by
  obtain ⟨result, isResult, success, isSuccess, numbers⟩ := answers
  obtain ⟨others, results⟩ := List.head?_eq_some_iff.mp isResult
  obtain ⟨behind, successes⟩ := List.head?_eq_some_iff.mp isSuccess
  have object := type_eq_object_of_getObjectItem parsed
    (results ▸ List.cons_ne_nil result others)
  obtain ⟨result_idx, id⟩ :=
    exists_getAttributeDefaultInt parsed object (ascii ['i', 'd']) (-1)
  simp only [handleReply, id, getObjectItemAt, results, successes, dereference,
    Outcome.ok_bind]
  by_cases succeeded : success.type = .true
  · obtain ⟨radius, x, y⟩ := numbers succeeded
    obtain ⟨contact_radius, _, radii⟩ := List.exists_cons_of_ne_nil radius
    obtain ⟨center_pt_x, _, xs⟩ := List.exists_cons_of_ne_nil x
    obtain ⟨center_pt_y, _, ys⟩ := List.exists_cons_of_ne_nil y
    simp only [if_pos succeeded, radii, xs, ys, Outcome.ok_bind]
    exact ⟨_, rfl⟩
  · rw [if_neg succeeded]
    exact ⟨_, rfl⟩

/-- Any other reply makes the client follow a null pointer. -/
theorem handleReply_fails
    {resp_obj : CJSON}
    (lacks : ¬ AnswersQuery resp_obj)
    (unsuccess_cnt : Nat) :
    ∃ error, handleReply resp_obj unsuccess_cnt = .error error ∧ error.IsNull := by
  have searched := getAttributeDefaultInt_meets resp_obj (ascii ['i', 'd']) (-1)
  unfold handleReply
  cases id : getAttributeDefaultInt [resp_obj] (ascii ['i', 'd']) (-1) with
  | error error =>
      rw [id] at searched
      exact ⟨error, rfl, .inr searched⟩
  | ok result_idx =>
      simp only [getObjectItemAt, Outcome.ok_bind]
      cases results : resp_obj.getObjectItem resultKey with
      | nil => exact ⟨.nullItem, rfl, .inl rfl⟩
      | cons result others =>
          simp only [Outcome.ok_bind]
          cases successes : result.getObjectItem successKey with
          | nil => exact ⟨.nullItem, rfl, .inl rfl⟩
          | cons success behind =>
              have asks (numbers : success.type = .true →
                  result.getObjectItem contactRadiusKey ≠ [] ∧
                    result.getObjectItem centerPtXKey ≠ [] ∧
                      result.getObjectItem centerPtYKey ≠ []) : False := by
                refine lacks ⟨result, ?_, success, ?_, numbers⟩
                · rw [results]
                  rfl
                · rw [successes]
                  rfl
              simp only [dereference, Outcome.ok_bind]
              by_cases succeeded : success.type = .true
              · rw [if_pos succeeded]
                cases radii : result.getObjectItem contactRadiusKey with
                | nil => exact ⟨.nullItem, rfl, .inl rfl⟩
                | cons contact_radius _ =>
                    cases xs : result.getObjectItem centerPtXKey with
                    | nil => exact ⟨.nullItem, rfl, .inl rfl⟩
                    | cons center_pt_x _ =>
                        cases ys : result.getObjectItem centerPtYKey with
                        | nil => exact ⟨.nullItem, rfl, .inl rfl⟩
                        | cons center_pt_y _ =>
                            exact (asks fun _ => by simp [radii, xs, ys]).elim
              · exact (asks fun isTrue => absurd isTrue succeeded).elim

/-- The client survives a line exactly if what the parser makes of it has all that the
client asks for. -/
theorem survives_iff (line : Bytes) :
    Survives line ↔
      ∀ resp_obj, parse (line ++ [0]) = .ok resp_obj → AnswersQuery resp_obj := by
  constructor
  · intro survives resp_obj accepted
    by_contra lacks
    obtain ⟨error, failed, isNull⟩ := handleReply_fails lacks 0
    refine survives 0 error ?_ isNull
    have notEmpty : line ≠ [] := by
      rintro rfl
      cases accepted
    simp only [handleLine, if_neg notEmpty, accepted, failed]
    rfl
  · intro answers unsuccess_cnt error failed
    unfold handleLine at failed
    by_cases empty : line = []
    · rw [if_pos empty] at failed
      cases failed
    · rw [if_neg empty] at failed
      cases accepted : parse (line ++ [0]) with
      | ok resp_obj =>
          have parsed := ((parse_returns (line ++ [0])).of_eq_ok accepted).1
          obtain ⟨handled, returned⟩ :=
            exists_handleReply parsed (answers resp_obj accepted) unsuccess_cnt
          simp only [accepted, returned] at failed
          cases failed
      | error refused =>
          rw [accepted] at failed
          cases refused <;> cases failed <;> rintro (null | null) <;> cases null

/-- An object without members. -/
theorem not_survives_empty : ¬ Survives (ascii ['{', '}']) := by
  intro survives
  exact survives 0 .nullItem rfl (.inl rfl)

end ProtobufSandbox
