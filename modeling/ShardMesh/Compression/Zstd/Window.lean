import ShardMesh.Compression.Segment

/-!
# What copies can reach

A frame that is decoded piece by piece passes through a buffer of limited size. When another block
might not fit behind the last one, the buffer is filled again from its beginning: a new run starts.
Copies reach the present run and the one before it, of which the beginning is overwritten as the
present run proceeds.
-/

namespace ShardMesh.Compression.Zstd

/-- The data of a frame so far, and where in it the last two runs began. -/
structure Window where
  out : Array UInt8 := #[]
  /-- Where the present run began. -/
  run : Nat := 0
  /-- Where the run before it began. -/
  previous : Nat := 0
  deriving DecidableEq, Repr, Inhabited

namespace Window

/-- The number of bytes in the present run. -/
def filled (w : Window) : Nat := w.out.size - w.run

/-- How far back copies can start. -/
def reach (w : Window) : Nat := w.out.size - w.previous

/-- Starts a new run. -/
def restart (w : Window) : Window := { w with previous := w.run, run := w.out.size }

/-- Appends bytes. -/
def append (w : Window) (bytes : Bytes) : Window := { w with out := w.out.appendList bytes }

/-- Appends `count` bytes from the run before, from a position on. Of that run the first `fresh`
places hold bytes of the present run by now. -/
def copyPrevious (run previous fresh : Nat) : (count : Nat) → (position : Nat) → Array UInt8 →
    Array UInt8
  | 0, _, out => out
  | count + 1, position, out =>
    let place := position - previous
    let source := if place < fresh then run + place else position
    copyPrevious run previous fresh count (position + 1) (out.push (out.getD source 0))

/-- Appends a copy that starts `offset` bytes back. What begins in the run before goes on in the
present run. -/
def copy (w : Window) (offset length : Nat) : Window :=
  if offset ≤ w.filled then { w with out := copyBack w.out offset length }
  else
    let start := w.out.size - offset
    let old := min length (w.run - start)
    let out := copyPrevious w.run w.previous w.filled old start w.out
    { w with out := copyBack out (out.size - w.run) (length - old) }

end Window

/-- The buffer through which a frame passes. -/
structure Ring where
  /-- Its size in bytes. -/
  size : Nat
  /-- The room that a block may need. -/
  block : Nat
  /-- Whether it is filled again and again. -/
  turns : Bool
  deriving DecidableEq, Repr, Inhabited

namespace Ring

/-- The room behind the present run. -/
def space (r : Ring) (w : Window) : Nat := r.size - w.filled

/-- Starts a new run if another block might not fit. -/
def turn (r : Ring) (w : Window) : Window :=
  if r.turns && r.space w < r.block then w.restart else w

end Ring
end ShardMesh.Compression.Zstd
