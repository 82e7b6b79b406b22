import ProtobufSandbox.Json.ArrayItems

/-!
# Access to an element by key and index

`getItem` looks for a member with a key and takes an element of it. It does not ask
whether there is a member when it is not called on an object, and it takes a negative
index for the first element.
-/

namespace ProtobufSandbox

/-- How a call of the accessors ends without a result. -/
inductive AccessError
  /-- A null pointer is used. -/
  | attribute (error : AttributeError)
  /-- The exception is thrown. -/
  | cJSONException (obj : List CJSON) (msg : Bytes)

namespace CJSON

/-- The loop of `getKey`. -/
def findKey (key : Bytes) : List CJSON → Except AttributeError (List CJSON)
  | [] => .ok []
  | c :: next =>
      match c.string with
      | none => .error .nullName
      | some string => if string.val = key then .ok (c :: next) else findKey key next

/-- `getKey`. -/
def getKey (obj : List CJSON) (key : Bytes) : Except AccessError (List CJSON) :=
  match obj with
  | [] => .ok []
  | object :: next =>
      if object.type = .object then
        match findKey key object.child with
        | .error error => .error (.attribute error)
        | .ok [] =>
            .error (.cJSONException (object :: next)
              (ascii ['k', 'e', 'y', ' '] ++ key ++
                ascii [' ', 'n', 'o', 't', ' ', 'f', 'o', 'u', 'n', 'd']))
        | .ok (c :: after) => .ok (c :: after)
      else .ok []

/-- `getItem`. -/
def getItem
    (obj : List CJSON)
    (key : Bytes)
    (index : Int32) : Except AccessError (List CJSON) := do
  match ← getKey obj key with
  -- The children of the null pointer.
  | [] => throw (.attribute .nullItem)
  | array :: _ =>
      match walkTo index.toInt array.child with
      | [] =>
          throw (.cJSONException obj
            (ascii ['w', 'r', 'o', 'n', 'g', ' ', 'i', 'n', 'd', 'e', 'x']))
      | item :: next => return item :: next

/-! ## What is asked for -/

/-- The item does not have exactly the key for its name. -/
def namedOtherwise (key : Bytes) (item : CJSON) : Bool :=
  !decide (item.name = some key)

/-- The chain from the first member with exactly the key. -/
def membersFrom (object : CJSON) (key : Bytes) : List CJSON :=
  object.child.dropWhile (namedOtherwise key)

/-- The members in front of it. -/
def membersBefore (object : CJSON) (key : Bytes) : List CJSON :=
  object.child.takeWhile (namedOtherwise key)

/-- The chain from the element that a call asks for; it is empty if there is none. -/
def askedItem (obj : List CJSON) (key : Bytes) (index : Int32) : List CJSON :=
  match obj with
  | [] => []
  | object :: _ =>
      if object.type = .object ∧ 0 ≤ index.toInt then
        match object.membersFrom key with
        | [] => []
        | member :: _ => member.child.drop index.toInt.toNat
      else []

/-- The call returns the element that it asks for, and throws if there is none. -/
structure ExactOrThrows (obj : List CJSON) (key : Bytes) (index : Int32) : Prop where
  exact : askedItem obj key index ≠ [] →
    getItem obj key index = .ok (askedItem obj key index)
  throws : askedItem obj key index = [] →
    ∃ thrown msg, getItem obj key index = .error (.cJSONException thrown msg)

/-- The call is made on an object, there is no member without a name on the way to the
key, and the index is not negative, unless the key is not there or has no elements. -/
def SafeAccess (obj : List CJSON) (key : Bytes) (index : Int32) : Prop :=
  ∃ object ∈ obj.head?, object.type = .object ∧
    (∀ member ∈ object.membersBefore key, member.string.isSome) ∧
    (index.toInt < 0 → ∀ member ∈ (object.membersFrom key).head?, member.child = [])

/-- The loop goes on to the key, unless it meets a member without a name. -/
theorem findKey_eq
    (key : Bytes)
    (items : List CJSON) :
    findKey key items =
      if ∀ member ∈ items.takeWhile (namedOtherwise key), member.string.isSome then
        .ok (items.dropWhile (namedOtherwise key))
      else .error .nullName := by
  induction items with
  | nil => rfl
  | cons c next inductionHypothesis =>
      rw [findKey]
      cases present : c.string with
      | none =>
          have other : namedOtherwise key c = true := by simp [namedOtherwise, name, present]
          rw [List.takeWhile_cons_of_pos other, if_neg]
          intro named
          cases present ▸ named c List.mem_cons_self
      | some string =>
          by_cases equal : string.val = key
          · have wanted : ¬ namedOtherwise key c = true := by
              simp [namedOtherwise, name, present, equal]
            rw [List.takeWhile_cons_of_neg wanted, List.dropWhile_cons_of_neg wanted]
            simp only [if_pos equal]
            rw [if_pos fun member isMember => absurd isMember List.not_mem_nil]
          · have other : namedOtherwise key c = true := by
              simp [namedOtherwise, name, present, equal]
            rw [List.takeWhile_cons_of_pos other, List.dropWhile_cons_of_pos other]
            simp only [if_neg equal, inductionHypothesis, List.forall_mem_cons, present,
              Option.isSome_some, true_and]

theorem findKey_child (object : CJSON) (key : Bytes) :
    findKey key object.child =
      if ∀ member ∈ object.membersBefore key, member.string.isSome then
        .ok (object.membersFrom key)
      else .error .nullName :=
  findKey_eq key object.child

section Object

variable {object : CJSON} {key : Bytes}
variable (isObject : object.type = .object) (next : List CJSON)

include isObject

/-- A member without a name on the way is compared. -/
theorem getItem_of_unnamed
    (unnamed : ¬ ∀ member ∈ object.membersBefore key, member.string.isSome)
    (index : Int32) :
    getItem (object :: next) key index = .error (.attribute .nullName) := by
  have searched := object.findKey_child key
  rw [if_neg unnamed] at searched
  simp only [getItem, getKey, if_pos isObject, searched]
  rfl

variable (named : ∀ member ∈ object.membersBefore key, member.string.isSome)

include named

/-- Without the key the call throws. -/
theorem getItem_of_missing
    (missing : object.membersFrom key = [])
    (index : Int32) :
    ∃ thrown msg, getItem (object :: next) key index =
      .error (.cJSONException thrown msg) := by
  have searched := object.findKey_child key
  rw [if_pos named, missing] at searched
  simp only [getItem, getKey, if_pos isObject, searched]
  exact ⟨_, _, rfl⟩

/-- With the key the walk decides; a negative index walks nowhere. -/
theorem getItem_of_member
    {member : CJSON}
    {after : List CJSON}
    (found : object.membersFrom key = member :: after)
    (index : Int32) :
    (member.child.drop index.toInt.toNat = [] →
      ∃ thrown msg, getItem (object :: next) key index =
        .error (.cJSONException thrown msg)) ∧
    (member.child.drop index.toInt.toNat ≠ [] →
      getItem (object :: next) key index = .ok (member.child.drop index.toInt.toNat)) := by
  have searched := object.findKey_child key
  rw [if_pos named, found] at searched
  simp only [getItem, getKey, if_pos isObject, searched, Outcome.ok_bind, walkTo_eq_drop]
  cases member.child.drop index.toInt.toNat with
  | nil => exact ⟨fun _ => ⟨_, _, rfl⟩, fun some => absurd rfl some⟩
  | cons item items => exact ⟨fun none => absurd none (List.cons_ne_nil _ _), fun _ => rfl⟩

/-- With the key the call goes wrong exactly for a negative index and some elements. -/
theorem exactOrThrows_iff_of_member
    {member : CJSON}
    {after : List CJSON}
    (found : object.membersFrom key = member :: after)
    (index : Int32) :
    ExactOrThrows (object :: next) key index ↔ (index.toInt < 0 → member.child = []) := by
  obtain ⟨throws, returns⟩ := getItem_of_member isObject next named found index
  by_cases negative : index.toInt < 0
  · have asked : askedItem (object :: next) key index = [] := by
      rw [askedItem, if_neg fun both => absurd both.2 (by omega)]
    have stays : index.toInt.toNat = 0 := by omega
    rw [stays, List.drop_zero] at throws returns
    rw [forall_prop_of_true negative]
    constructor
    · intro exactOrThrows
      by_contra some
      obtain ⟨thrown, msg, throwing⟩ := exactOrThrows.throws asked
      cases (returns some).symm.trans throwing
    · intro none
      exact ⟨fun other => absurd asked other, fun _ => throws none⟩
  · have asked : askedItem (object :: next) key index =
        member.child.drop index.toInt.toNat := by
      simp only [askedItem, if_pos (And.intro isObject (by omega : 0 ≤ index.toInt)), found]
    refine iff_of_true ⟨fun some => ?_, fun none => throws (asked ▸ none)⟩
      fun isNegative => absurd isNegative negative
    rw [asked] at some ⊢
    exact returns some

end Object

/-- On a pointer that is no object the call follows the null pointer. -/
theorem getItem_of_not_object
    {obj : List CJSON}
    (notObject : ∀ object ∈ obj.head?, object.type ≠ .object)
    (key : Bytes)
    (index : Int32) :
    getItem obj key index = .error (.attribute .nullItem) := by
  cases obj with
  | nil => rfl
  | cons object next =>
      simp only [getItem, getKey, if_neg (notObject object rfl)]
      rfl

/-- A call that uses a null pointer neither returns nor throws. -/
theorem not_exactOrThrows_of_attribute
    {obj : List CJSON}
    {key : Bytes}
    {index : Int32}
    {error : AttributeError}
    (failed : getItem obj key index = .error (.attribute error)) :
    ¬ ExactOrThrows obj key index := by
  rintro ⟨exact, throws⟩
  by_cases asked : askedItem obj key index = []
  · obtain ⟨thrown, msg, throwing⟩ := throws asked
    cases failed.symm.trans throwing
  · cases failed.symm.trans (exact asked)

/-- `getItem` is exact or throws exactly on safe calls. -/
theorem exactOrThrows_iff
    (obj : List CJSON)
    (key : Bytes)
    (index : Int32) :
    ExactOrThrows obj key index ↔ SafeAccess obj key index := by
  by_cases isObject : ∃ object ∈ obj.head?, object.type = .object
  · obtain ⟨object, isHead, isObject⟩ := isObject
    obtain ⟨next, rfl⟩ := List.head?_eq_some_iff.mp isHead
    have condition : SafeAccess (object :: next) key index ↔
        (∀ member ∈ object.membersBefore key, member.string.isSome) ∧
          (index.toInt < 0 → ∀ member ∈ (object.membersFrom key).head?, member.child = []) := by
      simp [SafeAccess, isObject]
    rw [condition]
    by_cases named : ∀ member ∈ object.membersBefore key, member.string.isSome
    · rw [and_iff_right named]
      cases found : object.membersFrom key with
      | nil =>
          have thrown := getItem_of_missing isObject next named found index
          refine iff_of_true ⟨fun asked => absurd ?_ asked, fun _ => thrown⟩
            fun _ member isMember => by cases isMember
          simp only [askedItem, found, ite_self]
      | cons member after =>
          simp only [List.head?_cons, Option.mem_some_iff, forall_eq']
          exact exactOrThrows_iff_of_member isObject next named found index
    · have unnamed := getItem_of_unnamed isObject next named index
      refine iff_of_false (not_exactOrThrows_of_attribute unnamed) fun safe => named safe.1
  · have notObject : ∀ object ∈ obj.head?, object.type ≠ .object :=
      fun object isHead type => isObject ⟨object, isHead, type⟩
    refine iff_of_false
      (not_exactOrThrows_of_attribute (getItem_of_not_object notObject key index)) ?_
    rintro ⟨object, isHead, type, -⟩
    exact isObject ⟨object, isHead, type⟩

/-- A null pointer, and a negative index in an array with an element. -/
theorem not_exactOrThrows :
    ¬ ExactOrThrows [] (ascii ['a']) 0 ∧
      ¬ ExactOrThrows
        [createObject.addItemToObject (keyOf ['a'])
          (some ({ newItem with type := .array }.addItemToArray (createNumber 7)))]
        (ascii ['a']) (-1) := by
  constructor
  · rintro ⟨-, throws⟩
    obtain ⟨thrown, msg, throwing⟩ := throws rfl
    cases throwing
  · rintro ⟨-, throws⟩
    obtain ⟨thrown, msg, throwing⟩ := throws rfl
    cases throwing

end CJSON
end ProtobufSandbox
