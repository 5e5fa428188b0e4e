import ShardMesh.Compression.Repetition
import ShardMesh.Compression.Zstd.Literals.Writer
import ShardMesh.Compression.Zstd.Sequences.Writer
import ShardMesh.Compression.Zstd.Stream

/-!
# Writing Zstandard frames

Data is written as one frame. Its header does not announce the length, but a window that is large
enough for all of the data. Each piece of the data becomes a block. Of the coded blocks that might
stand for it one is taken if it is shorter and is seen to decode to the piece; otherwise the block is
plain.
-/

namespace ShardMesh.Compression.Zstd

/-! ## Pieces -/

/-- A part of the data, and contents of coded blocks that might stand for it. -/
structure Piece where
  bytes : Bytes
  candidates : List Bytes
  deriving DecidableEq, Repr, Inhabited

/-- The content of a coded block that follows a description. -/
def contentOf? (d : Segmentation) : Option Bytes :=
  (writeSequences? d.segments).map (writeLiterals d.literals ++ ·)

/-- The bytes of a piece: as many as a block may stand for. -/
def pieceSize : Nat := maxBlock

/-- Copies within a frame. -/
def rules : CopyRules := ⟨5, Nat.pow 2 20, 0, 8, 256⟩

/-- The index of earlier positions of a frame. -/
def freshIndex : Index := .empty 5 889523592379 15

/-- Cuts the data from a position on into pieces, at most `fuel` of them. A piece might be described
by copies, or by literals alone. -/
def piecesFrom (data : Array UInt8) : (fuel : Nat) → (start : Nat) → Index → List Piece
  | 0, _, _ => []
  | fuel + 1, start, index =>
    if data.size ≤ start then []
    else
      let stop := min data.size (start + pieceSize)
      let bytes := excerpt data start stop
      let (d, index) := segment rules data index start stop
      ⟨bytes, [d, ⟨[], bytes⟩].filterMap contentOf?⟩ :: piecesFrom data fuel stop index

/-! ## Blocks -/

/-- The header of a block: its length, what it holds (0 plain, 2 coded) and whether it is the
last. -/
def blockHeader (size form : Nat) (last : Bool) : Bytes :=
  Bytes.ofNatLE blockHeaderSize (size * 8 + form * 2 + last.toNat)

/-- Fewer bytes are written as they are. -/
def leastCoded : Nat := 64

/-- How many bytes a coded block has to save. -/
def leastGain (size : Nat) : Nat := size / 64 + 2

/-- The state after a coded block, if it saves enough and stands for the bytes. -/
def accept? (h : Header) (ring : Ring) (s : State) (bytes content : Bytes) : Option State :=
  if bytes.length < leastCoded ∨ bytes.length ≤ content.length + leastGain bytes.length then none
  else
    match decodePiece h ring s (.coded content) with
    | some next => if next.out = s.out.appendList bytes then some next else none
    | none => none

/-- The shortest of some texts. -/
def shortest? (texts : List Bytes) : Option Bytes :=
  texts.foldl (fun best text => some ((best.map (shorter · text)).getD text)) none

/-- The block of a piece, and the state after it. -/
def writeBlock (h : Header) (ring : Ring) (s : State) (piece : Piece) (last : Bool) :
    Bytes × State :=
  let coded := do
    let content ← shortest? piece.candidates
    let next ← accept? h ring s piece.bytes content
    return (blockHeader content.length 2 last ++ content, next)
  coded.getD
    (blockHeader piece.bytes.length 0 last ++ piece.bytes,
      { s with window := s.window.append piece.bytes })

/-- The blocks of pieces. Without any there is an empty block. -/
def writeBlocks (h : Header) (ring : Ring) : State → List Piece → Bytes
  | _, [] => blockHeader 0 0 true
  | s, [piece] => (writeBlock h ring s piece true).1
  | s, piece :: rest =>
    let (block, s) := writeBlock h ring s piece false
    block ++ writeBlocks h ring s rest

/-! ## Frames -/

/-- The least window that is announced, as a power of two. -/
def leastWindowLog : Nat := 19

/-- The window for data of a length, as a power of two. -/
def windowLogFor (size : Nat) : Nat := max leastWindowLog (size.log2 + 1)

/-- The header of a frame of data: it announces a window, but no length, and there is no checksum. -/
def frameHeader (size : Nat) : Header := ⟨6, Nat.pow 2 (windowLogFor size), none, false⟩

/-- The header of a frame of data as it is written, after the magic number. -/
def writeHeader (size : Nat) : Bytes := [0, UInt8.ofNat ((windowLogFor size - 10) * 8)]

/-- One frame that stands for the data. -/
def compress (data : Bytes) : Bytes :=
  let h := frameHeader data.length
  Bytes.ofNatLE 4 magic ++ writeHeader data.length ++
    writeBlocks h (h.ring h.buffers) {}
      (piecesFrom data.toArray (data.length / pieceSize + 1) 0 freshIndex)

end ShardMesh.Compression.Zstd
