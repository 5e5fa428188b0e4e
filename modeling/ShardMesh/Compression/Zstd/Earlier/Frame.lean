import ShardMesh.Compression.Zstd.Earlier.LongLengths
import ShardMesh.Compression.Zstd.Earlier.Sequences

/-!
# Frames of earlier versions

A frame ends with a block that says so, or with an empty one. It is decoded block by block: a block
has to be at hand as a whole, or to fit into the buffer for the input.
-/

namespace ShardMesh.Compression.Zstd.Earlier

/-- What a block holds. -/
inductive Block where
  /-- Data, as it is or coded. -/
  | content (coded : Bool) (bytes : Bytes)
  /-- The end of the frame, with a checksum that counts if the header says so. -/
  | ending (checksum : Nat)
  deriving DecidableEq, Repr

/-- Takes a block off: what it holds, and the bytes after it. Repeated bytes are not supported. -/
def takeBlock (bytes : Bytes) : Option (Block × Bytes) :=
  match bytes with
  | a :: b :: c :: rest =>
    let form := a.toNat / 64
    let size := Bytes.toNatBE [a % 8, b, c]
    if form = 3 then some (.ending (Bytes.toNatBE [a % 64, b, c]), rest)
    else if form = 2 then none
    else
      let content := rest.take size
      if content.length < size then none
      else some (.content (form = 0) content, rest.drop size)
  | _ => none

/-- The checksum of data: 22 bits of its hash. -/
def checksumOf (out : Array UInt8) : Nat := (XxHash64.hash out).toNat / 2048 % Nat.pow 2 22

/-- What blocks of a frame hand on to later ones. -/
structure State where
  window : Window := {}
  code : Option PrefixCode := none
  tables : Option Tables := none
  recent : Recent := Recent.initial
  deriving Repr, Inhabited

/-- How many bytes behind a sequence's literals have to be free. -/
def margin : Nat := 8

/-- Whether sequences fit into `space` bytes, with a margin behind the literals of each. -/
def fits : (space : Nat) → List Sequence → Bool
  | _, [] => true
  | space, s :: rest =>
    decide (s.literals + margin ≤ space ∧ s.literals + s.length ≤ space) &&
      fits (space - (s.literals + s.length)) rest

/-- Decodes the content of a coded block into `space` bytes. -/
def decodeCoded (version : Version) (space : Nat) (s : State) (content : Bytes) :
    Option State := do
  if maxBlock ≤ content.length then none
  else
    let (literals, code, rest) ← readLiteralsOf version s.code content
    let found ←
      match version with
      | .four | .five =>
        (readUniformSequences version rest).map fun found => (⟨found, s.recent, none⟩ : Sequences)
      | .six | .seven => readSequencesOf version s.tables s.recent rest
    if fits space found.sequences then
      return ⟨← execute space found.sequences literals s.window, code, found.tables, found.recent⟩
    else none

/-- Decodes the content of a block. -/
def decodeContent (h : Header) (ring : Ring) (s : State) (coded : Bool) (content : Bytes) :
    Option State :=
  let space := ring.space s.window
  if coded then decodeCoded h.version space s content
  else if space < content.length then none
  else some { s with window := s.window.append content }

/-- Decodes the content of a block behind `size` bytes of data, and hands its data over. -/
@[noinline] def takeContentAfter (size : Nat) (h : Header) (ring : Ring) (s : State) (c : Course)
    (coded : Bool) (content : Bytes) : Option (State × Course) := do
  let next ← decodeContent h ring s coded content
  let made := next.window.out.size - size
  let c := ((c.consume (content.length - 1)).deliver made).consume 1
  return (if made = 0 then next else { next with window := ring.turn next.window }, c)

/-- Decodes the blocks of a frame as long as no more comes than is wanted. An empty block ends it
without a checksum. -/
def readBlocks (h : Header) (b : Buffers) : (fuel : Nat) → State → Course → Bytes →
    Option (Array UInt8 × Course × Bytes)
  | 0, _, _, _ => none
  | fuel + 1, s, c, bytes => do
    let (block, rest) ← takeBlock bytes
    let c := c.consume blockHeaderSize
    match block with
    | .ending checksum =>
      if h.checksum ∧ checksum ≠ checksumOf s.window.out then none
      else return (s.window.out, c.pause, rest)
    | .content coded content =>
      if content.isEmpty then return (s.window.out, c.pause, rest)
      else if c.atHand < content.length ∧ b.input < content.length then none
      else
        let (s, c) ← takeContentAfter s.window.out.size h (h.ring b) s c coded content
        if c.receiver.isOver then none else readBlocks h b fuel s c rest

end ShardMesh.Compression.Zstd.Earlier
