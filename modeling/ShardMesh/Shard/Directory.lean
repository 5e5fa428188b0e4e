import ShardMesh.Connection
import ShardMesh.Shard.Registry

/-!
# The connections of a node

A directory seats the connections of a node, registers them under their ids, and knows the codec
that they share. What is sent to many connections at once is addressed by way of the registry.
-/

namespace ShardMesh

/-- Seated connections with their registry and what they share. -/
structure Directory (C P : Type) where
  hub : Hub P
  /-- Every connection that was ever seated. -/
  roster : Roster C := {}
  registry : ShardRegistry Seat := ShardRegistry.empty

namespace Directory

variable {C P : Type} [Packet P]

/-! ## Single connections -/

/-- The connection registered under an id. -/
def connection? (d : Directory C P) (id : ConnectionId) : Option (Connection C) :=
  (d.registry.member? id).bind d.roster.get?

/-- The id of the connection on a seat. -/
def idOf (d : Directory C P) (seat : Seat) : Option ConnectionId := (d.roster.get? seat).bind (·.id)

/-- The ids of the connections on some seats, ascending. -/
def idsOf (d : Directory C P) (seats : List Seat) : List ConnectionId :=
  (seats.filterMap d.idOf).mergeSort (· ≤ ·)

/-- Changes the connection on a seat. -/
def modify (d : Directory C P) (seat : Seat) (f : Connection C → Connection C) : Directory C P :=
  { d with roster := d.roster.modify seat f }

/-- Seats a connection without registering it. -/
def seat (d : Directory C P) (c : Connection C) : Seat × Directory C P :=
  let (seat, roster) := d.roster.push c
  (seat, { d with roster })

/-- Sends a packet over the connection on a seat. -/
def send (d : Directory C P) (seat : Seat) (packet : P) :
    Except ProtocolError Unit × Directory C P :=
  let (result, roster, hub) := d.roster.send d.hub seat packet
  (result, { d with roster, hub })

/-! ## Registration -/

/-- Registers the connection on a seat under an id. -/
def register (d : Directory C P) (id : ConnectionId) (seat : Seat) (shard : ShardId) :
    Except ProtocolError Unit × Directory C P :=
  let (result, registry) := d.registry.add id seat shard
  (result, { d with registry })

/-- Unregisters an id: the seat of the connection that was registered under it. -/
def remove (d : Directory C P) (id : ConnectionId) : Option Seat × Directory C P :=
  let (seat, registry) := d.registry.remove id
  (seat, { d with registry })

/-- Replaces the ownership table. -/
def configure (d : Directory C P) (shards : ShardMap) :
    Except ProtocolError Unit × Directory C P :=
  let (result, registry) := d.registry.configure shards
  (result, { d with registry })

/-- Counts a change of shard. -/
def countMove (d : Directory C P) (changed : Bool) : Directory C P :=
  if changed then { d with hub := d.hub.count (·.shardMove) } else d

/-- Moves a connection to another shard. -/
def move (d : Directory C P) (id : ConnectionId) (shard : ShardId) :
    Except ProtocolError Unit × Directory C P :=
  match d.registry.move id shard with
  | (.ok changed, registry) => (.ok (), { d with registry }.countMove changed)
  | (.error e, registry) => (.error e, { d with registry })

/-- Moves a connection to the shard that owns a key, and names the shard. -/
def assign (d : Directory C P) (id : ConnectionId) (key : UInt64) :
    Except ProtocolError ShardId × Directory C P :=
  match d.registry.moveToOwner id key with
  | (.ok (shard, changed), registry) => (.ok shard, { d with registry }.countMove changed)
  | (.error e, registry) => (.error e, { d with registry })

/-! ## Many connections -/

/-- Sends a packet over every active connection of a shard, or of all shards, that passes a test,
and counts the successes. -/
def broadcast (d : Directory C P) (packet : P) (shard : Option ShardId)
    (keep : Connection C → Bool) : Nat × Directory C P :=
  let (n, roster, hub) := d.roster.broadcast keep packet (d.registry.audience shard) d.hub
  (n, { d with roster, hub })

end Directory
end ShardMesh
