import ShardMesh.Wire.Value

/-!
# Writing values into a buffer

A `Writer` is a buffer of fixed size with a write position. A value that does not fit is refused
and leaves the writer as it was; only a byte array or text whose length fits and whose body does
not leaves the two bytes of its length behind. Writing may go on after a refusal.
-/

namespace ShardMesh.Wire

/-- A buffer of fixed size with a write position, which may lie past its end. -/
structure Writer where
  /-- The bytes, written or not. -/
  buffer : Bytes
  /-- Where writing started. -/
  start : Nat
  /-- Where the next byte goes. -/
  position : Nat
  deriving DecidableEq, Repr, Inhabited

namespace Writer

/-- A writer that starts at `offset`. -/
def atOffset (buffer : Bytes) (offset : Nat) : Writer := ⟨buffer, offset, offset⟩

/-- How many bytes have been written. -/
def written (w : Writer) : Nat := w.position - w.start

/-- Writes bytes as they are. -/
def putRaw (w : Writer) (bytes : Bytes) : Except ProtocolError Unit × Writer :=
  if w.position + bytes.length ≤ w.buffer.length then
    (.ok (), { w with
      buffer := w.buffer.overwrite w.position bytes
      position := w.position + bytes.length })
  else
    (.error (.bufferOverflow w.position bytes.length w.buffer.length), w)

/-- Writes the length as two bytes, then the bytes. -/
def putPrefixed (w : Writer) (bytes : Bytes) : Except ProtocolError Unit × Writer :=
  if bytes.length ≤ maxPrefixedLength then
    match w.putRaw (Bytes.ofNatBE 2 bytes.length) with
    | (.ok (), w) => w.putRaw bytes
    | refused => refused
  else
    (.error (.oversizedPacket bytes.length), w)

/-- Writes one value. -/
def put (w : Writer) (v : Value) : Except ProtocolError Unit × Writer :=
  if v.isPrefixed then w.putPrefixed v.body else w.putRaw v.body

/-- Writes values in order and stops at the first refusal. -/
def putAll (w : Writer) : List Value → Except ProtocolError Unit × Writer
  | [] => (.ok (), w)
  | v :: vs =>
    match w.put v with
    | (.ok (), w) => w.putAll vs
    | refused => refused

end Writer
end ShardMesh.Wire
