import ShardMesh.Compression.XxHash64
import ShardMesh.Compression.Zstd.Block
import ShardMesh.Compression.Zstd.Course

/-!
# Zstandard frames

A frame is a header, blocks, and perhaps a checksum. Dictionaries are not supported.

There are two ways to decode a frame. At once: the whole frame is at hand, and there is room for all
of the data it announces. Piece by piece: its blocks pass through a ring buffer as they come. Of a
well-formed frame both make the same; they differ in what else they accept. At once there is no
window and a block may be as long as the frame, but the announced length has to be right. Piece by
piece an empty block at the end is not looked into, and nobody compares the length after it.
-/

namespace ShardMesh.Compression.Zstd

/-- The number that starts a frame. -/
def magic : Nat := 0xFD2FB528

/-- The largest window that a frame may ask for. -/
def maxWindow : Nat := Nat.pow 2 27 + 1

/-- The least window. -/
def minWindow : Nat := 1024

/-- How far decoding writes past the end of what it appends. -/
def overshoot : Nat := 32

/-- What the header of a frame says. -/
structure Header where
  /-- The bytes of the header itself, with the magic number. -/
  size : Nat
  /-- How far back copies may reach; also bounds the blocks. -/
  window : Nat
  /-- The length of the data, if it is announced. -/
  contentSize : Option Nat
  /-- Whether a checksum follows the blocks. -/
  checksum : Bool
  deriving DecidableEq, Repr, Inhabited

/-- The most bytes that a block of the frame may stand for, or take. -/
def Header.blockLimit (h : Header) : Nat := min h.window maxBlock

/-- Whether the frame's data is as long as announced. -/
def Header.admits (h : Header) (size : Nat) : Bool := h.contentSize.all (· == size)

/-- The window that a descriptor byte stands for: a power of two and eighths of it. -/
def windowOf? (descriptor : Nat) : Option Nat :=
  let log := descriptor / 8 + 10
  if 31 < log then none else some (Nat.pow 2 log + Nat.pow 2 log / 8 * (descriptor % 8))

/-- Reads the header after the magic number. -/
def readHeader (bytes : Bytes) : Option (Header × Bytes) :=
  match bytes with
  | [] => none
  | descriptor :: rest => do
    let d := descriptor.toNat
    let single := d / 32 % 2 = 1
    if d / 8 % 2 = 1 then none
    else
      let (window, rest) ←
        if single then some (none, rest)
        else
          match rest with
          | [] => none
          | w :: rest => (windowOf? w.toNat).map fun n => (some n, rest)
      let dictionaryWidth := #[0, 1, 2, 4].getD (d % 4) 0
      let (dictionary, rest) ← takeNat dictionaryWidth rest
      let width := if d / 64 = 0 then (if single then 1 else 0) else Nat.pow 2 (d / 64)
      let (size, rest) ← takeNat width rest
      let contentSize :=
        if width = 0 then none else some (if width = 2 then size + 256 else size)
      if dictionary ≠ 0 then none
      else
        let header : Header :=
          { size := 5 + (if single then 0 else 1) + dictionaryWidth + width
            window := window.getD (contentSize.getD 0)
            contentSize
            checksum := d / 4 % 2 = 1 }
        return (header, rest)

/-- The bytes of the checksum after the blocks. -/
def Header.checksumSize (h : Header) : Nat := if h.checksum then 4 else 0

/-- Compares the checksum after the blocks, if there is one. -/
def Header.verify (h : Header) (out : Array UInt8) (bytes : Bytes) : Option Bytes :=
  if h.checksum then do
    let (checksum, rest) ← takeNat 4 bytes
    if checksum = (XxHash64.hash out).toNat % UInt32.size then some rest else none
  else some bytes

/-! ## At once -/

/-- How many bytes the blocks of a frame take. -/
def blocksSize : (fuel : Nat) → Bytes → Option Nat
  | 0, _ => none
  | fuel + 1, bytes => do
    let (block, last, rest) ← takeBlock bytes
    let size := blockHeaderSize + block.inputSize
    if last then return size else return size + (← blocksSize fuel rest)

/-- Decodes a block of which at most `space` bytes may come. Literals that are neither plain nor few
are kept behind the longest block, if there is space, and end it. -/
def decodeAtOnce (h : Header) (space : Nat) (s : State) : Block → Option State
  | .plain content =>
    if space < content.length then none else some { s with window := s.window.append content }
  | .repeated count byte =>
    if space < count then none
    else some { s with window := s.window.append (List.replicate count byte) }
  | .coded content =>
    if h.blockLimit < content.length then none
    else
      let limit (sectionSize literals : Nat) : Nat :=
        let inPlace :=
          content.head?.any (·.toNat % 4 = 0) && sectionSize + overshoot ≤ content.length
        if !inPlace && h.blockLimit + 2 * overshoot + literals < space then h.blockLimit + overshoot
        else space
      decodeCoded h.blockLimit limit s content

/-- Decodes the blocks of a frame, of which each takes three bytes or more. -/
def readAtOnce (h : Header) (room : Nat) : (fuel : Nat) → State → Bytes →
    Option (Array UInt8 × Bytes)
  | 0, _, _ => none
  | fuel + 1, s, bytes => do
    let (block, last, rest) ← takeBlock bytes
    let s ← decodeAtOnce h (room - s.out.size) s block
    if last then
      if h.admits s.out.size then return (s.out, ← h.verify s.out rest) else none
    else readAtOnce h room fuel s rest

/-! ## Piece by piece -/

/-- Decodes a piece: a block, or a part of a plain one. -/
def decodePiece (h : Header) (ring : Ring) (s : State) : Block → Option State
  | .plain content =>
    if ring.space s.window < content.length then none
    else some { s with window := s.window.append content }
  | .repeated count byte =>
    if ring.space s.window < count then none
    else some { s with window := s.window.append (List.replicate count byte) }
  | .coded content =>
    decodeCoded h.blockLimit (fun _ _ => min h.blockLimit (ring.space s.window)) s content

/-- Decodes a piece behind `size` bytes of data. -/
@[noinline] def takePieceAfter (size : Nat) (h : Header) (ring : Ring) (s : State) (c : Course)
    (piece : Block) : Option (State × Course) := do
  let next ← decodePiece h ring s piece
  let made := next.out.size - size
  let c := ((c.consume (piece.inputSize - 1)).deliver made).consume 1
  return (if made = 0 then next else { next with window := ring.turn next.window }, c)

/-- Decodes a piece as soon as it is at hand, and hands its data over. -/
def takePiece (h : Header) (ring : Ring) (s : State) (c : Course) (piece : Block) :
    Option (State × Course) :=
  if piece.inputSize = 0 then some (s, c) else takePieceAfter s.out.size h ring s c piece

/-- Decodes a block. Of a plain block each part is taken as it comes. -/
def takePieces (h : Header) (ring : Ring) (s : State) (c : Course) :
    Block → Option (State × Course)
  | .plain content => do
    let (s, next) ← takePiece h ring s c (.plain (content.take c.atHand))
    takePiece h ring s next (.plain (content.drop c.atHand))
  | block => takePiece h ring s c block

/-- Decodes the blocks of a frame as long as no more comes than is wanted. -/
def readPieces (h : Header) (ring : Ring) : (fuel : Nat) → State → Course → Bytes →
    Option (Array UInt8 × Course × Bytes)
  | 0, _, _, _ => none
  | fuel + 1, s, c, bytes => do
    let (block, last, rest) ← takeBlock bytes
    if h.blockLimit < block.size ∨ h.blockLimit < block.inputSize then none
    else
      let (s, c) ← takePieces h ring s (c.consume blockHeaderSize) block
      if c.receiver.isOver then none
      else if last then
        if h.admits s.out.size ∨ block.inputSize = 0 then
          return (s.out, (c.consume h.checksumSize).pause, ← h.verify s.out rest)
        else none
      else readPieces h ring fuel s c rest

/-- The size of the buffers for a frame: for its blocks, and for its data. -/
structure Buffers where
  input : Nat := 0
  output : Nat := 0
  deriving DecidableEq, Repr, Inhabited

/-- The buffers that a frame needs. They need not hold more than the announced data. -/
def Header.buffers (h : Header) : Buffers :=
  let ring := max h.window minWindow + 2 * h.blockLimit + 2 * overshoot
  ⟨max h.blockLimit 4, (h.contentSize.map (min ring)).getD ring⟩

/-- The buffers for another frame: those of earlier frames, if both are large enough. -/
def Buffers.fit (b needed : Buffers) : Buffers :=
  if needed.input ≤ b.input ∧ needed.output ≤ b.output then b else needed

/-- The ring through which a frame passes. It turns unless it holds all announced data. -/
def Header.ring (h : Header) (b : Buffers) : Ring :=
  ⟨b.output, h.blockLimit, h.contentSize.all (b.output < ·)⟩

end ShardMesh.Compression.Zstd
