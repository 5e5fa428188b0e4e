/-!
# How output is taken

Whoever reads a stream does not know how long it is. It takes a few bytes first, to see whether
there are any, and then portions that fill the free space of its buffer, which grows whenever little
of that is left. A portion ends where it is full, or where the decoder has to stop with something in
hand. Of a limited length one byte more is taken, to see that there is more.
-/

namespace ShardMesh.Compression.Zstd

/-- A reader of output with its buffer. -/
structure Receiver where
  /-- The most bytes that are wanted. -/
  limit : Nat
  /-- The bytes of earlier portions. -/
  taken : Nat := 0
  /-- The bytes of the present portion. -/
  portion : Nat := 0
  /-- The size of the buffer; there is none before the first portion has ended. -/
  capacity : Nat := 0
  /-- The most bytes of a portion. -/
  most : Nat := 8192
  deriving DecidableEq, Repr, Inhabited

namespace Receiver

/-- The most bytes of the first portion, and the least free space of the buffer. -/
def probe : Nat := 32

/-- The least size of the buffer. -/
def minCapacity : Nat := 8

/-- The size of the present portion as far as the buffer goes. -/
def span (r : Receiver) : Nat :=
  if r.capacity = 0 then probe else min (r.capacity - r.taken) r.most

/-- The most bytes of the present portion. -/
def room (r : Receiver) : Nat := min r.span (r.limit + 1 - r.taken)

/-- The buffer of a size, larger if less than a probe would fit into it. -/
def grow (capacity taken : Nat) : Nat :=
  if capacity - taken < probe then max (2 * capacity) (taken + probe) else capacity

/-- Ends the present portion, unless nothing is in it. The next portions may be larger if this one
was as large as possible. -/
def close (r : Receiver) : Receiver :=
  if r.portion = 0 then r
  else
    let taken := r.taken + r.portion
    { r with
      taken
      portion := 0
      capacity := grow (if r.capacity = 0 then max minCapacity r.portion else r.capacity) taken
      most :=
        if r.capacity ≠ 0 ∧ r.most ≤ r.span ∧ r.portion = r.span then 2 * r.most else r.most }

/-- Takes bytes that are in hand already, in portions of their own. Each takes a byte or more. -/
def drain : (fuel : Nat) → Receiver → Nat → Receiver
  | 0, r, _ => r
  | fuel + 1, r, count =>
    if count = 0 ∨ r.room = 0 then r
    else
      let portion := min count r.room
      drain fuel { r with portion }.close (count - portion)

/-- Takes bytes. If they do not fit into the present portion, it ends, and so does the last of those
that take the rest. -/
def deliver (r : Receiver) (count : Nat) : Receiver :=
  let free := r.room - r.portion
  if count ≤ free then { r with portion := r.portion + count }
  else drain count { r with portion := r.portion + free }.close (count - free)

/-- Whether more came than was wanted. -/
def isOver (r : Receiver) : Bool := r.limit < r.taken + r.portion

end Receiver
end ShardMesh.Compression.Zstd
