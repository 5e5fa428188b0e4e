import ShardMesh.Packet.Basic
import ShardMesh.Text.Quoted

/-!
# Events and those who hear them

What happens to a connection becomes an event: it is active, a packet arrived, it ended, or it
failed. A listener has callbacks for some of these; to run one ends in one of four ways, and none
of them reaches beyond the listener.
-/

namespace ShardMesh

/-- What an event tells about its connection. -/
inductive News (P : Type) where
  /-- The session is established. -/
  | active
  /-- A packet arrived. -/
  | packet (packet : P)
  /-- The session ended in order. -/
  | inactive
  /-- The session failed. -/
  | failed
  deriving DecidableEq, Repr, Inhabited

/-- Something that happened to a connection, which is named by its id if it has one. -/
structure ConnectionEvent (P : Type) where
  connection : Option ConnectionId
  news : News P
  deriving DecidableEq, Repr, Inhabited

/-- The packet that arrived, if it is that. -/
def News.packet? {P : Type} : News P → Option P
  | .packet p => some p
  | .active | .inactive | .failed => none

/-- The callback that hears the event. -/
def News.callback {P : Type} : News P → String
  | .active => "on_active"
  | .packet _ => "on_packet"
  | .inactive => "on_inactive"
  | .failed => "on_error"

/-- The event as it appears in diagnostics. -/
def ConnectionEvent.describe {P : Type} (e : ConnectionEvent P) : String :=
  "ConnectionEvent \x7b operation: " ++ Text.quoted e.news.callback ++ ", connection: " ++
    Text.optional (e.connection.map fun id => toString id.toNat) ++ " \x7d"

/-- How a callback ends. -/
inductive Reaction where
  /-- There is no callback for the event. -/
  | ignored
  | completed
  /-- The callback gave an error. -/
  | failed
  /-- The callback was broken off. -/
  | panicked
  deriving DecidableEq, Repr, Inhabited

/-- A listener: how it reacts to each event. -/
abbrev Listener (P : Type) := ConnectionEvent P → Reaction

/-- A listener that reacts alike to all events. -/
def Listener.always {P : Type} (reaction : Reaction) : Listener P := fun _ => reaction

/-- A listener that has callbacks only where every listener must have one. -/
def Listener.minimal {P : Type} : Listener P := fun e =>
  match e.news with
  | .packet _ | .inactive => .completed
  | .active | .failed => .ignored

end ShardMesh
