import ShardMesh.Error

/-!
# Typed values of the wire

The types a packet field can have and their values. Numbers are big-endian, signed ones in two's
complement; byte arrays and texts carry their length in front, as two bytes.
-/

namespace ShardMesh.Wire

/-- The type of one field. -/
inductive FieldType where
  | u8 | bool | u16 | u32 | i32 | u64 | i64
  /-- Bytes whose number the reader knows. -/
  | raw (length : Nat)
  /-- Bytes with their number in front. -/
  | bytes
  /-- UTF-8 text with its length in bytes in front. -/
  | text
  deriving DecidableEq, Repr, Inhabited

/-- The value of one field. -/
inductive Value where
  | u8 (value : UInt8)
  | bool (value : Bool)
  | u16 (value : UInt16)
  | u32 (value : UInt32)
  | i32 (value : Int32)
  | u64 (value : UInt64)
  | i64 (value : Int64)
  | raw (value : Bytes)
  | bytes (value : Bytes)
  | text (value : String)
  deriving DecidableEq, Repr, Inhabited

/-- The type of a value. -/
def Value.type : Value → FieldType
  | .u8 _ => .u8
  | .bool _ => .bool
  | .u16 _ => .u16
  | .u32 _ => .u32
  | .i32 _ => .i32
  | .u64 _ => .u64
  | .i64 _ => .i64
  | .raw value => .raw value.length
  | .bytes _ => .bytes
  | .text _ => .text

/-- The value that a field has before anything is read: zero, false, empty. -/
def FieldType.zero : FieldType → Value
  | .u8 => .u8 0
  | .bool => .bool false
  | .u16 => .u16 0
  | .u32 => .u32 0
  | .i32 => .i32 0
  | .u64 => .u64 0
  | .i64 => .i64 0
  | .raw length => .raw (List.replicate length 0)
  | .bytes => .bytes []
  | .text => .text ""

@[simp] theorem FieldType.type_zero (t : FieldType) : t.zero.type = t := by
  cases t <;> simp [FieldType.zero, Value.type]

/-- The largest length that two bytes can announce. -/
def maxPrefixedLength : Nat := 65535

/-- The bytes of a value that carries no length, and the body of one that does. -/
def Value.body : Value → Bytes
  | .u8 value => [value]
  | .bool value => [if value then 1 else 0]
  | .u16 value => Bytes.ofNatBE 2 value.toNat
  | .u32 value => Bytes.ofNatBE 4 value.toNat
  | .i32 value => Bytes.ofNatBE 4 value.toUInt32.toNat
  | .u64 value => Bytes.ofNatBE 8 value.toNat
  | .i64 value => Bytes.ofNatBE 8 value.toUInt64.toNat
  | .raw value => value
  | .bytes value => value
  | .text value => Bytes.ofText value

/-- Whether a value is written with its length in front. -/
def Value.isPrefixed : Value → Bool
  | .bytes _ | .text _ => true
  | _ => false

/-- The written form of a value whose length, if it carries one, fits in two bytes. -/
def Value.encoding (v : Value) : Bytes :=
  if v.isPrefixed then Bytes.ofNatBE 2 v.body.length ++ v.body else v.body

end ShardMesh.Wire
