import ShardMesh.Compression.Zstd.Literals
import ShardMesh.Compression.Zstd.Sequences

/-!
# Blocks

A frame is a row of blocks. A block holds its bytes as they are, one byte repeated, or a literals
and a sequences section; these may refer to the codes and the offsets of earlier blocks.
-/

namespace ShardMesh.Compression.Zstd

/-- The most bytes a block may stand for. -/
def maxBlock : Nat := 131072

/-- A little-endian number of `width` bytes, and the bytes after it. -/
def takeNat (width : Nat) (bytes : Bytes) : Option (Nat × Bytes) :=
  let field := bytes.take width
  if field.length < width then none else some (Bytes.toNatLE field, bytes.drop width)

/-- What a block holds. -/
inductive Block where
  | plain (content : Bytes)
  | repeated (count : Nat) (byte : UInt8)
  | coded (content : Bytes)
  deriving DecidableEq, Repr

namespace Block

/-- How many bytes the content takes. -/
def inputSize : Block → Nat
  | .plain content | .coded content => content.length
  | .repeated _ _ => 1

/-- The size that is announced. -/
def size : Block → Nat
  | .plain content | .coded content => content.length
  | .repeated count _ => count

end Block

/-- The bytes of the header of a block. -/
def blockHeaderSize : Nat := 3

/-- Takes a block off: what it holds, whether it is the last, and the bytes after it. -/
def takeBlock (bytes : Bytes) : Option (Block × Bool × Bytes) := do
  let (head, rest) ← takeNat blockHeaderSize bytes
  let last := head % 2 = 1
  let size := head / 8
  match head / 2 % 4 with
  | 1 =>
    match rest with
    | [] => none
    | b :: rest => return (.repeated size b, last, rest)
  | 3 => none
  | form =>
    let content := rest.take size
    if content.length < size then none
    else return (if form = 0 then .plain content else .coded content, last, rest.drop size)

/-- What blocks of a frame hand on to later ones. -/
structure State where
  window : Window := {}
  code : Option PrefixCode := none
  tables : Option Tables := none
  recent : Recent := Recent.initial
  deriving Repr, Inhabited

/-- The data of the frame so far. -/
def State.out (s : State) : Array UInt8 := s.window.out

/-- Decodes the content of a coded block with at most `maxLiterals` literals. How much data it may
stand for depends on the length of its literals section and the number of its literals. -/
def decodeCoded (maxLiterals : Nat) (limit : (sectionSize literals : Nat) → Nat) (s : State)
    (content : Bytes) : Option State := do
  let (literals, code, rest) ← readLiterals s.code content
  let count := literals.length
  if maxLiterals < count then none
  else
    let found ← readSequences s.tables s.recent rest
    let window ← execute (limit (content.length - rest.length) count) found.sequences literals
      s.window
    return ⟨window, code, found.tables, found.recent⟩

end ShardMesh.Compression.Zstd
