import ShardMesh.Shard.Table
import ShardMesh.Text.Quoted

/-!
# The shard registry

Registered connections are partitioned into shards. Membership is written down twice: every shard
has the set of its members, and an index names the shard of each registered connection. An
operation changes the two one after the other, so each of them is a sequence of the atomic steps
at the beginning of this module; `move` copies a member into the target before it leaves the
source, so at any time in between at least one of the sets has it.

The registry does not look into what it registers: a member may be anything.
-/

namespace ShardMesh

/-- The members of every shard, and the shard of every member. -/
structure ShardRegistry (α : Type) where
  /-- Which shard owns which keys. -/
  table : ShardTable
  /-- The members of each known shard. -/
  shards : Dict ShardId (Dict ConnectionId α)
  /-- The shard of each registered connection. -/
  placement : Dict ConnectionId ShardId
  deriving Inhabited

namespace ShardRegistry

variable {α : Type}

/-- The registry that knows the unassigned shard only. -/
def empty : ShardRegistry α :=
  ⟨ShardTable.empty, Dict.empty.set unassignedShard Dict.empty, Dict.empty⟩

/-! ## Atomic steps -/

/-- The member that a shard has under an id. -/
def memberIn (r : ShardRegistry α) (shard : ShardId) (id : ConnectionId) : Option α :=
  (r.shards.get? shard).bind (·.get? id)

/-- Whether the index names a shard for an id. -/
def isPlacedIn (r : ShardRegistry α) (id : ConnectionId) (shard : ShardId) : Bool :=
  r.placement.get? id = some shard

/-- Puts a member into the set of a shard. -/
def insertInto (r : ShardRegistry α) (shard : ShardId) (id : ConnectionId) (member : α) :
    ShardRegistry α :=
  { r with shards := r.shards.modify shard (·.set id member) }

/-- Takes an id out of the set of a shard. -/
def takeFrom (r : ShardRegistry α) (shard : ShardId) (id : ConnectionId) : ShardRegistry α :=
  { r with shards := r.shards.modify shard (·.erase id) }

/-- Lets the index name another shard, provided that it still names the expected one. -/
def swapPlacement (r : ShardRegistry α) (id : ConnectionId) (expected target : ShardId) :
    Bool × ShardRegistry α :=
  if r.isPlacedIn id expected then (true, { r with placement := r.placement.set id target })
  else (false, r)

/-- Takes an id out of the set of a shard unless the index names that shard. -/
def takeUnlessPlaced (r : ShardRegistry α) (shard : ShardId) (id : ConnectionId) :
    ShardRegistry α :=
  if r.isPlacedIn id shard then r else r.takeFrom shard id

/-- Puts a member into the set of a shard if it is missing there although the index names the
shard. -/
def restoreIfPlaced (r : ShardRegistry α) (shard : ShardId) (id : ConnectionId) (member : α) :
    ShardRegistry α :=
  if (r.memberIn shard id).isNone && r.isPlacedIn id shard then r.insertInto shard id member
  else r

/-! ## Operations -/

/-- Makes a shard known. -/
def know (r : ShardRegistry α) (shard : ShardId) : ShardRegistry α :=
  match r.shards.get? shard with
  | some _ => r
  | none => { r with shards := r.shards.set shard Dict.empty }

/-- Replaces the ownership table and makes its shards known. Members stay where they are, and
shards that are not in the new table stay known. -/
def configure (r : ShardRegistry α) (m : ShardMap) :
    Except ProtocolError Unit × ShardRegistry α :=
  match ShardTable.build m with
  | .error e => (.error e, r)
  | .ok table => (.ok (), { (m.keys ++ [unassignedShard]).foldl know r with table })

/-- Registers a member in a known shard. If the id was registered before, it leaves its old
shard. -/
def add (r : ShardRegistry α) (id : ConnectionId) (member : α) (shard : ShardId) :
    Except ProtocolError Unit × ShardRegistry α :=
  match r.shards.get? shard with
  | none => (.error (.unknownShard shard), r)
  | some _ =>
    let previous := r.placement.get? id
    let r := r.insertInto shard id member
    let r := { r with placement := r.placement.set id shard }
    match previous with
    | some old => (.ok (), if old = shard then r else r.takeFrom old id)
    | none => (.ok (), r)

/-- Moves a member to a known shard: into the target, then in the index, then out of the source.
Says whether that was a change. -/
def move (r : ShardRegistry α) (id : ConnectionId) (target : ShardId) :
    Except ProtocolError Bool × ShardRegistry α :=
  match r.placement.get? id with
  | none => (.error (.notFound id), r)
  | some source =>
    if source = target then (.ok false, r)
    else
      match r.shards.get? target, r.memberIn source id with
      | none, _ => (.error (.unknownShard target), r)
      | some _, none => (.error (.concurrentModification id), r)
      | some _, some member =>
        match (r.insertInto target id member).swapPlacement id source target with
        | (true, r) => (.ok true, (r.takeUnlessPlaced source id).restoreIfPlaced target id member)
        | (false, r) => (.error (.concurrentModification id), r.takeUnlessPlaced target id)

/-- Moves a member to the shard that owns a key. -/
def moveToOwner (r : ShardRegistry α) (id : ConnectionId) (key : UInt64) :
    Except ProtocolError (ShardId × Bool) × ShardRegistry α :=
  let shard := r.table.ownerOf key
  match r.move id shard with
  | (.ok changed, r) => (.ok (shard, changed), r)
  | (.error e, r) => (.error e, r)

/-- Unregisters an id: the member that was registered under it, and the registry without it. -/
def remove (r : ShardRegistry α) (id : ConnectionId) : Option α × ShardRegistry α :=
  match r.placement.get? id with
  | none => (none, r)
  | some shard =>
    let r := { r with placement := r.placement.erase id }
    (r.memberIn shard id, r.takeFrom shard id)

/-! ## Questions -/

/-- The shard of a registered connection. -/
def shardOf (r : ShardRegistry α) (id : ConnectionId) : Option ShardId := r.placement.get? id

/-- The member registered under an id. -/
def member? (r : ShardRegistry α) (id : ConnectionId) : Option α :=
  (r.shardOf id).bind fun shard => r.memberIn shard id

/-- The members of a shard. -/
def membersIn (r : ShardRegistry α) (shard : ShardId) : List α :=
  ((r.shards.get? shard).map (·.values)).getD []

/-- All registered members. -/
def members (r : ShardRegistry α) : List α := r.placement.keys.filterMap r.member?

/-- The number of registered connections. -/
def size (r : ShardRegistry α) : Nat := r.placement.size

/-- The known shards, ascending. -/
def shardIds (r : ShardRegistry α) : List ShardId := r.shards.keys.mergeSort (· ≤ ·)

/-- Whom a broadcast to one shard, or to all of them, addresses. -/
def audience (r : ShardRegistry α) : Option ShardId → List α
  | some shard => r.membersIn shard
  | none => r.shards.values.flatMap (·.values)

/-- The registry as it appears in diagnostics. -/
def describe (r : ShardRegistry α) : String :=
  "ShardRegistry \x7b shards: " ++ Text.listing (r.shardIds.map fun id => toString id.toInt) ++
    ", connections: " ++ toString r.size ++ " \x7d"

end ShardRegistry
end ShardMesh
