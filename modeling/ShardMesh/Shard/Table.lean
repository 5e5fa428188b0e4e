import ShardMesh.Dict
import ShardMesh.Shard.Range

/-!
# The ownership table

Which shard owns which keys is fixed by a map from shards to ranges. A map is good if it leaves the
reserved shard alone, has no empty range and no key in two ranges; a table is built from good maps
only, and finds the owner of a key by the last range that starts at or before it.
-/

namespace ShardMesh

/-- The shard of connections that have not been placed yet. It owns no keys. -/
def unassignedShard : ShardId := -1

/-- The ranges of each shard. -/
abbrev ShardMap := Dict ShardId (List KeyRange)

namespace ShardMap

/-- The shards with their ranges, in ascending order. -/
def ascending (m : ShardMap) : List (ShardId × List KeyRange) :=
  m.entries.mergeSort fun a b => a.1 ≤ b.1

/-- All ranges, each with its shard, the shards taken in some order. -/
def owned (m : ShardMap) (order : List (ShardId × List KeyRange) := m.ascending) :
    List (KeyRange × ShardId) :=
  order.flatMap fun (id, ranges) => ranges.map fun r => (r, id)

/-- What is wrong with one shard. -/
def complaintsAbout (id : ShardId) (ranges : List KeyRange) : List String :=
  (if id = unassignedShard then
    [s!"Shard id {unassignedShard.toInt} is reserved for unassigned connections"] else []) ++
  ranges.filterMap fun r =>
    if r.isValid then none
    else some (s!"Shard {id.toInt} range " ++ r.text ++ " is empty (start > end)")

/-- What is wrong with a map; nothing if it is good. The order in which the shards are taken decides
which of several clashes is named. -/
def complaints (m : ShardMap) (order : List (ShardId × List KeyRange) := m.ascending) :
    List String :=
  m.ascending.flatMap (fun (id, ranges) => complaintsAbout id ranges) ++
    match findClash? (m.owned order) with
    | some c =>
      [s!"Shard ranges overlap: shard {c.owner.toInt} " ++ c.range.text ++
        s!" and shard {c.otherOwner.toInt} " ++ c.otherRange.text]
    | none => []

end ShardMap

/-- Owned ranges in the order of their first keys. -/
structure ShardTable where
  rows : List (KeyRange × ShardId)
  deriving DecidableEq, Repr, Inhabited

namespace ShardTable

/-- The table in which nothing is owned. -/
def empty : ShardTable := ⟨[]⟩

/-- The table of a good map, or all that is wrong with the map. -/
def build (m : ShardMap) (order : List (ShardId × List KeyRange) := m.ascending) :
    Except ProtocolError ShardTable :=
  match m.complaints order with
  | [] => .ok ⟨sortByFirst (m.owned order)⟩
  | complaints => .error (.config ("Invalid shard map: " ++ String.intercalate "; " complaints))

/-- The shard that owns a key, or the unassigned shard. -/
def ownerOf (t : ShardTable) (key : UInt64) : ShardId :=
  match (t.rows.takeWhile (fun row => row.1.first ≤ key)).getLast? with
  | some (range, id) => if range.contains key then id else unassignedShard
  | none => unassignedShard

/-- The shards that own something, ascending. -/
def shardIds (t : ShardTable) : List ShardId :=
  ((t.rows.map Prod.snd).mergeSort (· ≤ ·)).eraseReps

/-- The number of ranges. -/
def size (t : ShardTable) : Nat := t.rows.length

end ShardTable
end ShardMesh
