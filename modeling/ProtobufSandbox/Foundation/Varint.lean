import Mathlib.Algebra.Group.Nat.Defs
import Mathlib.Data.List.Basic

/-!
# Base-128 varints

A natural number is written in groups of seven bits, the lowest first. The high
bit of a byte says that another group follows, so that a varint is a run of
bytes from 128 on, ended by one byte below 128.
-/

namespace ProtobufSandbox
namespace Varint

/-- The bytes of a varint: the continuation bit is set on all but the last. -/
def IsVarint : List UInt8 → Prop
  | [] => False
  | [last] => last < 128
  | byte :: bytes => 128 ≤ byte ∧ IsVarint bytes

/-- Write at most `groups` groups before the last one. -/
def encodeGroups : Nat → Nat → List UInt8
  | 0, value => [UInt8.ofNat (value % 128)]
  | groups + 1, value =>
      if value < 128 then [UInt8.ofNat value]
      else UInt8.ofNat (value % 128 + 128) :: encodeGroups groups (value / 128)

/-- The varint of a number, in as few groups as it needs. -/
def encode (value : Nat) : List UInt8 :=
  encodeGroups value value

/-- Read a varint from the beginning of a text. -/
def decode : List UInt8 → Option (Nat × List UInt8)
  | [] => none
  | byte :: bytes =>
      if byte < 128 then some (byte.toNat, bytes)
      else (decode bytes).map fun (value, rest) =>
        (byte.toNat - 128 + 128 * value, rest)

/-- A group with the continuation bit is a byte from 128 on. -/
theorem toNat_ofNat_group
    {value : Nat}
    (small : value < 256) :
    (UInt8.ofNat value).toNat = value := by
  rw [UInt8.toNat_ofNat']
  omega

theorem lt_128_iff (byte : UInt8) : byte < 128 ↔ byte.toNat < 128 :=
  UInt8.lt_iff_toNat_lt

/-- A continuation byte in front of a varint makes a varint. -/
theorem IsVarint.cons
    {byte : UInt8}
    {bytes : List UInt8}
    (continued : 128 ≤ byte)
    (varint : IsVarint bytes) :
    IsVarint (byte :: bytes) := by
  cases bytes with
  | nil => exact varint.elim
  | cons next bytes => exact ⟨continued, varint⟩

/-- Every encoding is a varint. -/
theorem isVarint_encodeGroups (groups value : Nat) :
    IsVarint (encodeGroups groups value) := by
  induction groups generalizing value with
  | zero =>
      change UInt8.ofNat (value % 128) < 128
      rw [lt_128_iff, toNat_ofNat_group (by omega)]
      omega
  | succ groups inductionHypothesis =>
      unfold encodeGroups
      split
      · next small =>
          change UInt8.ofNat value < 128
          rwa [lt_128_iff, toNat_ofNat_group (by omega)]
      · next large =>
          refine IsVarint.cons ?_ (inductionHypothesis _)
          rw [UInt8.le_iff_toNat_le, toNat_ofNat_group (by omega)]
          exact Nat.le_add_left _ _

theorem isVarint_encode (value : Nat) : IsVarint (encode value) :=
  isVarint_encodeGroups _ _

/-- A number of so many groups is written in no more. -/
theorem length_encodeGroups_le
    {groups value limit : Nat}
    (small : value < 128 ^ (limit + 1)) :
    (encodeGroups groups value).length ≤ limit + 1 := by
  induction limit generalizing groups value with
  | zero =>
      cases groups with
      | zero => exact Nat.le_refl _
      | succ groups =>
          rw [encodeGroups, if_pos (by omega)]
          exact Nat.le_refl _
  | succ limit inductionHypothesis =>
      cases groups with
      | zero => exact Nat.le_add_left 1 _
      | succ groups =>
          unfold encodeGroups
          split
          · exact Nat.le_add_left 1 _
          · have shorter : value / 128 < 128 ^ (limit + 1) := by
              rw [Nat.div_lt_iff_lt_mul (by decide), ← Nat.pow_succ]
              exact small
            exact Nat.succ_le_succ (inductionHypothesis shorter)

/-- Reading gives back what was written, and leaves what follows it. -/
theorem decode_encodeGroups
    {groups value : Nat}
    (enough : value ≤ groups)
    (rest : List UInt8) :
    decode (encodeGroups groups value ++ rest) = some (value, rest) := by
  induction groups generalizing value with
  | zero =>
      obtain rfl : value = 0 := by omega
      rfl
  | succ groups inductionHypothesis =>
      unfold encodeGroups
      split
      · next small =>
          have low : UInt8.ofNat value < 128 := by
            rwa [lt_128_iff, toNat_ofNat_group (by omega)]
          rw [List.singleton_append, decode, if_pos low,
            toNat_ofNat_group (by omega)]
      · next large =>
          have high : ¬ UInt8.ofNat (value % 128 + 128) < 128 := by
            rw [lt_128_iff, toNat_ofNat_group (by omega)]
            omega
          have shorter : value / 128 ≤ groups := by omega
          have whole :
              value % 128 + 128 - 128 + 128 * (value / 128) = value := by
            omega
          rw [List.cons_append, decode, if_neg high,
            inductionHypothesis shorter, Option.map_some,
            toNat_ofNat_group (by omega)]
          simp only [whole]

theorem decode_encode (value : Nat) (rest : List UInt8) :
    decode (encode value ++ rest) = some (value, rest) :=
  decode_encodeGroups (Nat.le_refl _) rest

/-- What is read is a varint at the beginning of the text. -/
theorem exists_of_decode
    {text rest : List UInt8}
    {value : Nat}
    (decoded : decode text = some (value, rest)) :
    ∃ bytes, IsVarint bytes ∧ text = bytes ++ rest := by
  induction text generalizing value with
  | nil => cases decoded
  | cons byte bytes inductionHypothesis =>
      unfold decode at decoded
      split at decoded
      · next low =>
          cases decoded
          exact ⟨[byte], low, rfl⟩
      · next high =>
          obtain ⟨⟨tail, rest'⟩, decodedTail, equality⟩ :=
            Option.map_eq_some_iff.mp decoded
          cases equality
          obtain ⟨group, varint, rfl⟩ := inductionHypothesis decodedTail
          exact ⟨byte :: group, varint.cons (UInt8.not_lt.mp high), rfl⟩

/-- A varint has exactly one byte below 128. -/
theorem countP_lt_128
    {bytes : List UInt8}
    (varint : IsVarint bytes) :
    bytes.countP (· < 128) = 1 := by
  induction bytes with
  | nil => exact varint.elim
  | cons byte bytes inductionHypothesis =>
      cases bytes with
      | nil =>
          have low : byte < 128 := varint
          simp [low]
      | cons next bytes =>
          have high : ¬ byte < 128 := UInt8.not_lt.mpr varint.1
          rw [List.countP_cons_of_neg (by simpa using high)]
          exact inductionHypothesis varint.2

end Varint
end ProtobufSandbox
