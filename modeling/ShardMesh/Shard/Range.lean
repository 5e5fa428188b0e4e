import ShardMesh.Error

/-!
# Ranges of ownership keys

Whoever owns keys owns them by inclusive ranges. A range whose first key lies after its last holds
nothing and counts as a mistake. Of several ranges the first clash is found by looking at
neighbours only, after sorting by first keys.
-/

namespace ShardMesh

/-- All keys from the first to the last. -/
structure KeyRange where
  first : UInt64
  last : UInt64
  deriving DecidableEq, Repr, Inhabited

namespace KeyRange

/-- Whether a key lies in the range. -/
def contains (r : KeyRange) (key : UInt64) : Bool := r.first ≤ key && key ≤ r.last

/-- Whether each of two ranges begins before the other ends. -/
def overlaps (a b : KeyRange) : Bool := a.first ≤ b.last && b.first ≤ a.last

/-- Whether the range holds a key at all. -/
def isValid (r : KeyRange) : Bool := r.first ≤ r.last

/-- The range in words. -/
def text (r : KeyRange) : String := toString r.first.toNat ++ "..=" ++ toString r.last.toNat

end KeyRange

/-- Two ranges that clash, each with its owner. -/
structure RangeClash (κ : Type) where
  owner : κ
  range : KeyRange
  otherOwner : κ
  otherRange : KeyRange
  deriving DecidableEq, Repr

/-- Owned ranges, those with smaller first keys before others. -/
def sortByFirst {κ : Type} (owned : List (KeyRange × κ)) : List (KeyRange × κ) :=
  owned.mergeSort fun a b => a.1.first ≤ b.1.first

/-- The first two neighbours that overlap. -/
def clashOfNeighbours? {κ : Type} : List (KeyRange × κ) → Option (RangeClash κ)
  | a :: b :: rest =>
    if a.1.overlaps b.1 then some ⟨a.2, a.1, b.2, b.1⟩ else clashOfNeighbours? (b :: rest)
  | _ => none

/-- The first clash among owned ranges in the order of their first keys. -/
def findClash? {κ : Type} (owned : List (KeyRange × κ)) : Option (RangeClash κ) :=
  clashOfNeighbours? (sortByFirst owned)

end ShardMesh
