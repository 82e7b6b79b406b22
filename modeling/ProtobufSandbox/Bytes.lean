import Mathlib.Data.List.Infix
import Mathlib.Data.List.TakeWhile

/-!
# Bytes and C strings

Buffers and `std::string` contents are lists of bytes. A `char *` argument
denotes the bytes before the first zero byte of the buffer it points to.
-/

namespace ProtobufSandbox

/-- The contents of a `char` array or of a `std::string`. -/
abbrev Bytes := List UInt8

/-- The bytes of an ASCII literal. -/
def ascii (characters : List Char) : Bytes :=
  characters.map fun character => UInt8.ofNat character.toNat

/-- `'\n'`. -/
def newline : UInt8 := 0x0A

/-- `'\r'`. -/
def carriageReturn : UInt8 := 0x0D

/-- The C string at the start of a buffer. -/
def cString (buffer : Bytes) : Bytes :=
  buffer.takeWhile (· ≠ 0)

/-- Write data at the start of a buffer. -/
def overwrite (buffer data : Bytes) : Bytes :=
  data ++ buffer.drop data.length

/-- `text.find(pattern) != std::string::npos`. -/
def contains (text pattern : Bytes) : Bool :=
  decide (pattern <:+: text)

/-- What can be checked for each byte, by its halves, holds of every byte. -/
theorem forall_byte
    {property : UInt8 → Prop}
    (checked : ∀ high low : Fin 16, property (UInt8.ofNat (high * 16 + low)))
    (byte : UInt8) :
    property byte := by
  have bounded := byte.toNat_lt
  have atHalves := checked ⟨byte.toNat / 16, by omega⟩ ⟨byte.toNat % 16, by omega⟩
  rwa [Nat.div_add_mod', UInt8.ofNat_toNat] at atHalves

/-- What can be checked for each byte of a text holds of every one. -/
theorem forall_mem_of_all
    {property : UInt8 → Prop}
    [DecidablePred property]
    {text : Bytes}
    (checked : text.all (fun byte => decide (property byte)) = true) :
    ∀ byte ∈ text, property byte :=
  fun byte present => of_decide_eq_true (List.all_eq_true.mp checked byte present)

/-- A C string holds no zero byte. -/
theorem zero_not_mem_cString (buffer : Bytes) :
    (0 : UInt8) ∉ cString buffer := by
  intro present
  simpa using List.mem_takeWhile_imp present

/-- Data without zero bytes is its own C string. -/
theorem cString_eq_self
    {data : Bytes}
    (nonzero : (0 : UInt8) ∉ data) :
    cString data = data := by
  rw [cString, List.takeWhile_eq_self_iff]
  intro byte present
  have byteNonzero : byte ≠ 0 := fun equal => nonzero (equal ▸ present)
  exact decide_eq_true byteNonzero

/-- A C string ends at its terminator. -/
theorem cString_append_zero
    {data : Bytes}
    (nonzero : (0 : UInt8) ∉ data)
    (rest : Bytes) :
    cString (data ++ 0 :: rest) = data := by
  have whole : data.takeWhile (· ≠ 0) = data := cString_eq_self nonzero
  rw [cString, List.takeWhile_append, whole, if_pos rfl,
    List.takeWhile_cons_of_neg (by decide), List.append_nil]

/-- The C string of a buffer that was all zero before the data was written to
it is the C string of the data. -/
theorem cString_overwrite_zeros
    (size : Nat)
    (data : Bytes) :
    cString (overwrite (List.replicate size 0) data) = cString data := by
  rw [cString, cString, overwrite, List.drop_replicate, List.takeWhile_append]
  split
  · next whole =>
      rw [List.takeWhile_replicate, (List.takeWhile_sublist _).eq_of_length whole]
      simp
  · rfl

end ProtobufSandbox
