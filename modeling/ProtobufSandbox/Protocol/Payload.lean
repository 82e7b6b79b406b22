import ProtobufSandbox.Bytes
import ProtobufSandbox.Foundation.Varint

/-!
# The messages of `payload.proto`

Messages are records of the fields that are set, with the getters, setters and
the proto2 wire encoding of the generated classes. Doubles are kept as their 64
bits: they are only copied and compared.
-/

namespace ProtobufSandbox

/-! ## Wire format -/

/-- The varint of an `int32`: negative numbers are sign-extended to 64 bits. -/
def int32Varint (value : Int32) : Bytes :=
  Varint.encode (value.toBitVec.signExtend 64).toNat

/-- The `int32` in a varint, of which only the low 32 bits are used. -/
def int32OfVarint (value : Nat) : Int32 :=
  Int32.ofBitVec (BitVec.ofNat 32 value)

/-- The eight bytes of a `double`, the lowest first. -/
def fixed64 (bits : UInt64) : Bytes :=
  (List.range 8).map fun group => (bits >>> UInt64.ofNat (8 * group)).toUInt8

/-- A length-delimited payload. -/
def delimited (payload : Bytes) : Bytes :=
  Varint.encode payload.length ++ payload

/-- Cutting a sign-extended number back to 32 bits gives the number. -/
theorem int32OfVarint_signExtend (value : Int32) :
    int32OfVarint (value.toBitVec.signExtend 64).toNat = value := by
  have narrowed :
      (value.toBitVec.signExtend 64).setWidth 32 = value.toBitVec := by
    ext index inRange
    rw [BitVec.getElem_setWidth, BitVec.getLsbD_signExtend]
    simp [inRange, Nat.lt_trans inRange]
  rw [int32OfVarint, BitVec.ofNat_toNat, narrowed, Int32.ofBitVec_toBitVec]

/-! ## Commands -/

/-- `sandbox::Command`. A field that is not set is nothing. -/
structure Command where
  id_ : Option Int32
  method_ : Option Bytes
  deriving DecidableEq

namespace Command

/-- The getter of the id, zero by default. -/
def id (command : Command) : Int32 :=
  command.id_.getD 0

/-- The getter of the method, empty by default. -/
def method (command : Command) : Bytes :=
  command.method_.getD []

/-- The wire encoding: the records of the fields that are set. -/
def serializeToString (command : Command) : Bytes :=
  (command.id_.elim [] fun value => 0x08 :: int32Varint value) ++
    (command.method_.elim [] fun text => 0x12 :: delimited text)

/-- The size of the wire encoding. -/
def byteSize (command : Command) : Nat :=
  command.serializeToString.length

/-- A command with both of its fields set. -/
def of (value : Int32) (text : Bytes) : Command where
  id_ := some value
  method_ := some text

theorem serializeToString_of (value : Int32) (text : Bytes) :
    (of value text).serializeToString =
      0x08 :: int32Varint value ++ 0x12 :: delimited text := rfl

/-- Only a command without any field has size zero. -/
theorem byteSize_eq_zero_iff (command : Command) :
    command.byteSize = 0 ↔ command.id_ = none ∧ command.method_ = none := by
  unfold byteSize serializeToString
  cases command.id_ <;> cases command.method_ <;> simp

end Command

/-! ## Responses -/

/-- `sandbox::Response_Success`. -/
inductive Success
  | true
  | false
  deriving DecidableEq

/-- The number of a value on the wire. -/
def Success.number : Success → UInt8
  | .true => 0
  | .false => 1

/-- `sandbox::Response_Status`. -/
inductive Status
  | ok
  | error
  deriving DecidableEq

/-- The number of a value on the wire. -/
def Status.number : Status → UInt8
  | .ok => 0
  | .error => 1

/-- A repeated field of doubles: how many elements were added, and what is
stored at each index. -/
structure RepeatedField where
  size : Nat
  elements : List UInt64
  deriving DecidableEq

namespace RepeatedField

/-- The field of a constructed message. -/
def empty : RepeatedField where
  size := 0
  elements := []

/-- `Get(index)`. -/
def get (field : RepeatedField) (index : Nat) : UInt64 :=
  field.elements.getD index 0

/-- `Set(index, value)` stores at an index; it adds no element. -/
def set
    (field : RepeatedField)
    (index : Nat)
    (value : UInt64) : RepeatedField where
  size := field.size
  elements :=
    (field.elements ++
      List.replicate (index + 1 - field.elements.length) 0).set index value

end RepeatedField

/-- `sandbox::Response_Result`. -/
structure ResponseResult where
  success_ : Option Success
  status_ : Option Status
  contactRadius_ : Option UInt64
  centerPoint_ : RepeatedField
  deriving DecidableEq

namespace ResponseResult

/-- A constructed message. -/
def empty : ResponseResult where
  success_ := none
  status_ := none
  contactRadius_ := none
  centerPoint_ := .empty

/-- The getter of the contact radius, zero by default. -/
def contactRadius (result : ResponseResult) : UInt64 :=
  result.contactRadius_.getD 0

/-- The getter of an element of the center point. -/
def centerPoint (result : ResponseResult) (index : Nat) : UInt64 :=
  result.centerPoint_.get index

def setSuccess (result : ResponseResult) (value : Success) : ResponseResult :=
  { result with success_ := some value }

def setStatus (result : ResponseResult) (value : Status) : ResponseResult :=
  { result with status_ := some value }

def setContactRadius
    (result : ResponseResult)
    (value : UInt64) : ResponseResult :=
  { result with contactRadius_ := some value }

def setCenterPoint
    (result : ResponseResult)
    (index : Nat)
    (value : UInt64) : ResponseResult :=
  { result with centerPoint_ := result.centerPoint_.set index value }

/-- The wire encoding, with an element record for each element added. -/
def serializeToString (result : ResponseResult) : Bytes :=
  (result.success_.elim [] fun value =>
    [0x08, value.number]) ++
  (result.status_.elim [] fun value =>
    [0x10, value.number]) ++
  (result.contactRadius_.elim [] fun value => 0x19 :: fixed64 value) ++
  (List.range result.centerPoint_.size).flatMap fun index =>
    0x21 :: fixed64 (result.centerPoint index)

end ResponseResult

/-- `sandbox::Response`. -/
structure Response where
  id_ : Option Int32
  result_ : Option ResponseResult
  deriving DecidableEq

namespace Response

/-- A constructed message. -/
def empty : Response where
  id_ := none
  result_ := none

def setId (response : Response) (value : Int32) : Response :=
  { response with id_ := some value }

/-- Change the result in place, which creates it if there is none. -/
def mutableResult
    (response : Response)
    (change : ResponseResult → ResponseResult) : Response :=
  { response with result_ := some (change (response.result_.getD .empty)) }

/-- The wire encoding. -/
def serializeToString (response : Response) : Bytes :=
  (response.id_.elim [] fun value => 0x08 :: int32Varint value) ++
    (response.result_.elim [] fun result =>
      0x12 :: delimited result.serializeToString)

end Response
end ProtobufSandbox
