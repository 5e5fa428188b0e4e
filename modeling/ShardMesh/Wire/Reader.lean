import ShardMesh.Wire.Value

/-!
# Reading values from a region of a buffer

A `Reader` walks over the bytes from an offset up to an end. A value that would cross the end is
refused with `bufferUnderflow`; reading may go on after a refusal. A reader whose position lies
past the whole buffer can read nothing, and asking it for zero bytes is a defect
(`sliceOutOfRange`), since that slice does not exist.
-/

namespace ShardMesh.Wire

/-- A region of a buffer with a read position. -/
structure Reader where
  /-- The buffer, of which the region is a part. -/
  buffer : Bytes
  /-- Where reading started. -/
  start : Nat
  /-- Where the next byte is read. -/
  position : Nat
  /-- The end of the region, never past the buffer's. -/
  stop : Nat
  deriving DecidableEq, Repr, Inhabited

namespace Reader

/-- A reader over the bytes from `offset` up to `stop`, as far as the buffer has them. -/
def ofRange (buffer : Bytes) (offset stop : Nat) : Reader :=
  ⟨buffer, offset, offset, min stop buffer.length⟩

/-- How many bytes have been read. -/
def consumed (r : Reader) : Nat := r.position - r.start

/-- How many bytes are left. -/
def remaining (r : Reader) : Nat := r.stop - r.position

/-- Reads a number of bytes. -/
def take (r : Reader) (needed : Nat) : Except ProtocolError Bytes × Reader :=
  if r.remaining < needed then
    (.error (.bufferUnderflow r.position needed r.remaining), r)
  else if r.buffer.length < r.position + needed then
    (.error (.sliceOutOfRange r.position (r.position + needed) r.buffer.length), r)
  else
    (.ok (r.buffer.slice r.position needed), { r with position := r.position + needed })

/-- Reads a big-endian number of `width` bytes. -/
def takeNat (r : Reader) (width : Nat) : Except ProtocolError Nat × Reader :=
  match r.take width with
  | (.ok bytes, r) => (.ok bytes.toNatBE, r)
  | (.error e, r) => (.error e, r)

/-- Reads two bytes of length, then that many bytes. -/
def takePrefixed (r : Reader) : Except ProtocolError Bytes × Reader :=
  match r.takeNat 2 with
  | (.ok length, r) => r.take length
  | (.error e, r) => (.error e, r)

/-- The boolean that a byte stands for. -/
def booleanOf (byte : UInt8) : Except ProtocolError Bool :=
  if byte = 0 then .ok false
  else if byte = 1 then .ok true
  else .error (.malformed (.boolean byte))

/-- The text that bytes stand for. -/
def textOf (bytes : Bytes) : Except ProtocolError String :=
  match Utf8.decode bytes with
  | .ok text => .ok text
  | .error diagnosis => .error (.malformed (.text diagnosis))

/-- Reads one value of the given type. -/
def get (r : Reader) : FieldType → Except ProtocolError Value × Reader
  | .u8 => (r.takeNat 1).map (·.map fun n => .u8 (UInt8.ofNat n)) id
  | .bool => (r.takeNat 1).map (·.bind fun n => (booleanOf (UInt8.ofNat n)).map .bool) id
  | .u16 => (r.takeNat 2).map (·.map fun n => .u16 (UInt16.ofNat n)) id
  | .u32 => (r.takeNat 4).map (·.map fun n => .u32 (UInt32.ofNat n)) id
  | .i32 => (r.takeNat 4).map (·.map fun n => .i32 (UInt32.ofNat n).toInt32) id
  | .u64 => (r.takeNat 8).map (·.map fun n => .u64 (UInt64.ofNat n)) id
  | .i64 => (r.takeNat 8).map (·.map fun n => .i64 (UInt64.ofNat n).toInt64) id
  | .raw length => (r.take length).map (·.map .raw) id
  | .bytes => r.takePrefixed.map (·.map .bytes) id
  | .text => r.takePrefixed.map (·.bind fun bytes => (textOf bytes).map .text) id

/-- Reads values of the given types in order and stops at the first refusal. -/
def getAll (r : Reader) : List FieldType → Except ProtocolError (List Value) × Reader
  | [] => (.ok [], r)
  | t :: ts =>
    match r.get t with
    | (.ok v, r) => (r.getAll ts).map (·.map (v :: ·)) id
    | (.error e, r) => (.error e, r)

end Reader
end ShardMesh.Wire
