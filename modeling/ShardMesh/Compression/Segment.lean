import ShardMesh.Bytes

/-!
# Literals and copies

Dictionary coders describe data as a row of segments: some literal bytes, then a copy of earlier
output, given by how far back it starts and how long it is. A copy may overlap what it produces.
`Segmentation.expand` gives the data that a description stands for.
-/

namespace ShardMesh.Compression

/-- Literal bytes followed by a copy of earlier output. -/
structure Segment where
  /-- Bytes as they are. -/
  literals : Bytes
  /-- How far back the copy starts. -/
  offset : Nat
  /-- How many bytes are copied. -/
  length : Nat
  deriving DecidableEq, Repr, Inhabited

/-- A description of data: segments, and literal bytes at the end. -/
structure Segmentation where
  segments : List Segment
  tail : Bytes
  deriving DecidableEq, Repr, Inhabited

/-- Appends `length` bytes, each the one `offset` before it; before the beginning are zeros. -/
def copyBack (out : Array UInt8) (offset : Nat) : (length : Nat) → Array UInt8
  | 0 => out
  | length + 1 => copyBack (out.push (out.getD (out.size - offset) 0)) offset length

/-- Appends what a segment describes. -/
def Segment.extend (s : Segment) (out : Array UInt8) : Array UInt8 :=
  copyBack (out.appendList s.literals) s.offset s.length

/-- The data that a description stands for. -/
def Segmentation.expand (d : Segmentation) : Bytes :=
  ((d.segments.foldl (fun out s => s.extend out) #[]).appendList d.tail).toList

/-- The length of the data that a description stands for. -/
def Segmentation.size (d : Segmentation) : Nat :=
  d.segments.foldl (fun n s => n + s.literals.length + s.length) 0 + d.tail.length

/-- All literal bytes of a description. -/
def Segmentation.literals (d : Segmentation) : Bytes :=
  d.segments.flatMap (·.literals) ++ d.tail

/-- Whether every copy, after `size` bytes of output, starts inside the output before it, and at
least one byte back. -/
def reachable (size : Nat) : List Segment → Bool
  | [] => true
  | s :: rest =>
    let size := size + s.literals.length
    decide (0 < s.offset ∧ s.offset ≤ size) && reachable (size + s.length) rest

end ShardMesh.Compression
