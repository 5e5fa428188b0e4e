import ShardMesh.Compression.Segment

/-!
# Finding repetitions

To describe data by copies one has to find earlier occurrences of what comes next. An index gives
for the next few bytes the last position that was seen with bytes like them. Where nothing is found
for long, positions are left out, more and more of them.
-/

namespace ShardMesh.Compression

/-! ## The index -/

/-- The last position for every class of positions; zero if there was none. Positions belong to one
class if the bytes from them on have the same key. -/
structure Index where
  /-- How many bytes make the key. -/
  width : Nat
  /-- What the key is multiplied by. -/
  factor : UInt64
  /-- There are two to this power of classes. -/
  bits : Nat
  /-- The last position of every class. -/
  last : Array Nat
  deriving DecidableEq, Repr, Inhabited

namespace Index

/-- An index that has seen nothing. -/
def empty (width : Nat) (factor : UInt64) (bits : Nat) : Index :=
  ⟨width, factor, bits, Array.replicate (Nat.pow 2 bits) 0⟩

/-- The class of a position: the top bits of a product with the bytes from it on. -/
def classOf (i : Index) (data : Array UInt8) (position : Nat) : Nat :=
  let key := Nat.fold i.width
    (fun k _ n => n ||| ((data.getD (position + k) 0).toUInt64 <<< (8 * k).toUInt64)) 0
  ((key <<< (64 - 8 * i.width).toUInt64 * i.factor) >>> (64 - i.bits).toUInt64).toNat

/-- The last position of a class. -/
def get (i : Index) (place : Nat) : Nat := i.last.getD place 0

/-- Notes a position. -/
def put (i : Index) (place position : Nat) : Index :=
  { i with last := i.last.setIfInBounds place position }

end Index

/-! ## Comparing -/

/-- How many bytes from `later` on agree with those from `earlier` on, at most `limit`. -/
def agreement (data : Array UInt8) (earlier later : Nat) : (limit : Nat) → Nat
  | 0 => 0
  | limit + 1 =>
    if data.getD earlier 0 = data.getD later 0 then
      agreement data (earlier + 1) (later + 1) limit + 1
    else 0

/-- How many bytes in front of `later` agree with those in front of `earlier`, at most `limit`. -/
def agreementBefore (data : Array UInt8) (earlier later : Nat) : (limit : Nat) → Nat
  | 0 => 0
  | limit + 1 =>
    if data.getD (earlier - 1) 0 = data.getD (later - 1) 0 then
      agreementBefore data (earlier - 1) (later - 1) limit + 1
    else 0

/-! ## Describing -/

/-- What copies a format admits, and how they are looked for. -/
structure CopyRules where
  /-- The shortest copy worth writing. -/
  minLength : Nat
  /-- The farthest offset. -/
  maxOffset : Nat
  /-- How many bytes at the end stay literal. -/
  tailLength : Nat
  /-- How many bytes before the end the last copy starts, at least. -/
  lead : Nat
  /-- After how many positions without a copy one more is left out from then on. -/
  patience : Nat
  deriving DecidableEq, Repr, Inhabited

/-- How many positions are left out after a number of positions without a copy. -/
def CopyRules.leap (rules : CopyRules) (tries : Nat) : Nat := tries / rules.patience

/-- Bytes of the data, as a list. -/
def excerpt (data : Array UInt8) (start stop : Nat) : Bytes := (data.extract start stop).toList

/-- The length of the copy to take at `position` from the `candidate` position before it; zero if
the rules admit none. -/
def copyLength (rules : CopyRules) (data : Array UInt8) (stop position candidate : Nat) : Nat :=
  if candidate < position ∧ position - candidate ≤ rules.maxOffset then
    let length := agreement data candidate position (stop - rules.tailLength - position)
    if length < rules.minLength then 0 else length
  else 0

/-- Describes the data up to `stop` from `position` on, whose bytes since `pending` are not
described yet; `tries` grows with every position at which no copy is found. A copy that is found is
extended to the bytes in front of it. -/
def segmentFrom (rules : CopyRules) (data : Array UInt8) (stop pending position tries : Nat)
    (index : Index) (found : Array Segment) : Segmentation × Index :=
  if position + rules.lead ≤ stop then
    let place := index.classOf data position
    let candidate := index.get place
    let index := index.put place position
    let back :=
      if copyLength rules data stop position candidate = 0 then 0
      else agreementBefore data candidate position (min candidate (position - pending))
    let start := position - back
    match copyLength rules data stop start (candidate - back) with
    | 0 =>
      segmentFrom rules data stop pending (position + 1 + rules.leap tries) (tries + 1) index
        found
    | length + 1 =>
      let next := start + (length + 1)
      let index := index.put (index.classOf data (next - 2)) (next - 2)
      segmentFrom rules data stop next (max next (position + 1)) 0 index
        (found.push ⟨excerpt data pending start, position - candidate, length + 1⟩)
  else
    (⟨found.toList, excerpt data pending stop⟩, index)
termination_by stop + 1 - position
decreasing_by all_goals omega

/-- Describes the part of the data between two positions; copies may start before it. Copies of what
the very first position holds are found even though the search starts behind it. -/
def segment (rules : CopyRules) (data : Array UInt8) (index : Index) (start stop : Nat) :
    Segmentation × Index :=
  segmentFrom rules data stop start (max start 1) 0 index #[]

end ShardMesh.Compression
