import ShardMesh.Compression.Zstd.Frame

/-!
# Earlier versions of the format

Before the format was settled its versions were numbered, and the frames of the last four of them
are still read. The magic number tells the version. What a header says is less: how large the
buffers have to be, and in the last of the versions whether a checksum follows. A length that is
announced is not compared with anything.
-/

namespace ShardMesh.Compression.Zstd.Earlier

/-- The versions that are still read. -/
inductive Version where
  | four
  | five
  | six
  | seven
  deriving DecidableEq, Repr, Inhabited

/-- The version that a magic number announces. -/
def Version.ofMagic? (number : Nat) : Option Version :=
  if number = 0xFD2FB524 then some .four
  else if number = 0xFD2FB525 then some .five
  else if number = 0xFD2FB526 then some .six
  else if number = 0xFD2FB527 then some .seven
  else none

/-- The number that `width` bits of a byte string spell, from bit `start` on, the first byte being
the highest. -/
def bigEndianBits (bytes : Bytes) (start width : Nat) : Nat :=
  let used := (start + width + 7) / 8
  Bytes.toNatBE (bytes.take used) / Nat.pow 2 (8 * used - start - width) % Nat.pow 2 width

/-- What the header of a frame says. -/
structure Header where
  version : Version
  /-- The bytes of the header itself, with the magic number. -/
  size : Nat
  /-- The size that the buffers need. -/
  buffers : Buffers
  /-- The room that a block may need in the buffer for the data. -/
  block : Nat
  /-- Whether the end of the frame holds a checksum. -/
  checksum : Bool
  deriving DecidableEq, Repr, Inhabited

/-- How many bytes have to be at hand to tell the version. -/
def leastHeader : Nat := 5

/-- A header of a version that keeps no more than its window. -/
def Header.ofWindow (version : Version) (windowLog : Nat) : Header :=
  ⟨version, leastHeader, ⟨maxBlock, Nat.pow 2 windowLog⟩, maxBlock, false⟩

/-- The room to spare. -/
def spare : Nat := 16

/-- A header of a version that keeps a block and some room to spare besides the window. -/
def Header.withSpare (version : Version) (size window : Nat) (checksum : Bool) : Header :=
  let window := max window minWindow
  let block := min window maxBlock
  ⟨version, size, ⟨block, window + block + spare⟩, block, checksum⟩

/-- Reads the header of the versions four and five: one byte holds the size of the window. -/
def readWindowHeader (version : Version) (bytes : Bytes) : Option (Header × Bytes) :=
  match bytes with
  | [] => none
  | d :: rest => if 16 ≤ d then none else some (.ofWindow version (d.toNat + 11), rest)

/-- Reads the header of version six: the size of the window, and perhaps a length. -/
def readSixthHeader (bytes : Bytes) : Option (Header × Bytes) :=
  match bytes with
  | [] => none
  | d :: rest => do
    let d := d.toNat
    let width := #[0, 1, 2, 8].getD (d / 64) 0
    let (_, rest) ← takeNat width rest
    if d / 32 % 2 = 1 then none
    else return (.withSpare .six (leastHeader + width) (Nat.pow 2 (d % 16 + 12)) false, rest)

/-- The largest window of version seven. -/
def maxSeventhWindow : Nat := Nat.pow 2 27

/-- Reads the header of version seven, which is laid out like that of the present format. Without a
window of its own a frame has its length for one, of which four bytes count. -/
def readSeventhHeader (bytes : Bytes) : Option (Header × Bytes) := do
  let (h, rest) ← readHeader bytes
  let window := h.window % UInt32.size
  if maxSeventhWindow < window then none
  else return (.withSpare .seven h.size window h.checksum, rest)

/-- Reads the header of a version after the magic number. -/
def readHeaderOf : Version → Bytes → Option (Header × Bytes)
  | .four => readWindowHeader .four
  | .five => readWindowHeader .five
  | .six => readSixthHeader
  | .seven => readSeventhHeader

/-- The buffers for another frame of the same version: either grows if it is too small. -/
def Header.fit (h : Header) (b : Buffers) : Buffers :=
  ⟨max b.input h.buffers.input, max b.output h.buffers.output⟩

/-- The ring through which a frame passes. -/
def Header.ring (h : Header) (b : Buffers) : Ring := ⟨b.output, h.block, true⟩

end ShardMesh.Compression.Zstd.Earlier
