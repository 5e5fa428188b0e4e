import ShardMesh.Config.Check
import ShardMesh.Dispatcher
import ShardMesh.Session.Basic
import ShardMesh.Shard.Directory

/-!
# The server

A server seats a connection for every session that begins, gives it the next id, and registers it
as unassigned. Whatever happens to the connection after that goes to the dispatcher: once that it
is active, then its packets, and once that it has ended. A connection that has ended stays
registered until somebody removes it.

A server is built from a plan, and a bad plan is refused before the first session.
-/

namespace ShardMesh

/-- The accepting side. -/
structure Server (C P : Type) extends Directory C P where
  config : ServerConfig
  dispatcher : Dispatcher P := {}
  /-- The context of the session accepted as the n-th, counted from zero. -/
  makeContext : Nat → C
  /-- The id that was given last. -/
  lastId : ConnectionId := 0
  shuttingDown : Bool := false

/-- What a server is built from. -/
structure ServerPlan (C P : Type) where
  codec : Option (Codec P) := none
  makeContext : Option (Nat → C) := none
  config : ServerConfig := {}
  shards : ShardMap := Dict.empty

namespace ServerPlan

variable {C P : Type} [Packet P]

/-- The plan that a configuration describes. Contexts are still to be provided for. -/
def ofConfig [Compressors] (config : MeshConfig) (registry : PacketRegistry P) : ServerPlan C P :=
  { codec := some (Codec.ofConfig registry config.codec)
    config := config.server
    shards := config.shardMap }

/-- The server of a plan, or what is wrong with the plan. -/
def build (plan : ServerPlan C P) : Except ProtocolError (Server C P) :=
  match plan.codec, plan.makeContext with
  | none, _ => .error (.config "Server requires a packet codec")
  | some _, none => .error (.config "Server requires a connection context factory")
  | some codec, some makeContext =>
    match plan.config.complaints with
    | [] =>
      match Directory.configure { hub := { codec } } plan.shards with
      | (.error e, _) => .error e
      | (.ok (), directory) => .ok { directory with config := plan.config, makeContext }
    | complaints => .error (.config (String.intercalate "; " complaints))

end ServerPlan

namespace Server

variable {C P : Type} [Packet P]

/-- Lets an event wait for the listeners. A stuck dispatcher loses it. -/
def announce (s : Server C P) (id : Option ConnectionId) (news : News P) : Server C P :=
  { s with dispatcher := (s.dispatcher.dispatch ⟨id, news⟩).2 }

/-! ## Sessions -/

/-- A session begins. After a shutdown it is refused, and its transport closed. -/
def onReady (s : Server C P) (transport : Transport) :
    Except (ProtocolError × Transport) Seat × Server C P :=
  if s.shuttingDown then (.error (.connectionClosed, transport.close), s)
  else
    let id := s.lastId + 1
    let (seat, roster) := s.roster.push
      { id := some id, context := s.makeContext s.roster.connections.length, transport }
    match s.registry.add id seat unassignedShard with
    | (.error e, _) => (.error (e, transport), { s with lastId := id })
    | (.ok (), registry) =>
      let hub := s.hub.count (·.connectionEstablished)
      (.ok seat, { s with lastId := id, roster, registry, hub }.announce (some id) .active)

/-- A frame arrived. Probes go back to where they came from, and every packet to the listeners;
what arrives on an inactive connection is dropped. -/
def onFrame (s : Server C P) (seat : Seat) (frame : Bytes) : Server C P :=
  match s.roster.get? seat with
  | none => s
  | some c =>
    if !c.active then s
    else
      match c.receive s.hub frame with
      | (none, c, hub) => { s with roster := s.roster.set seat c, hub }
      | (some packet, c, hub) =>
        let (c, hub) :=
          match Packet.ping? packet with
          | some _ => (c.send hub packet).2
          | none => (c, hub)
        { s with roster := s.roster.set seat c, hub }.announce c.id (.packet packet)

/-- A session ended. Only the first end of a connection counts. -/
def onClosed (s : Server C P) (seat : Seat) (reason : DisconnectReason) : Server C P :=
  match s.roster.get? seat with
  | none => s
  | some c =>
    match c.markInactive with
    | (false, _) => s
    | (true, c) =>
      { s with roster := s.roster.set seat c, hub := s.hub.count (·.connectionClosed) }.announce
        c.id (if reason.isError then .failed else .inactive)

/-- Closes the connection on a seat. -/
def close (s : Server C P) (seat : Seat) : Server C P :=
  { s with roster := s.roster.modify seat (·.close) }

/-- Writing failed, which resets the connection. -/
def onWriteError (s : Server C P) (seat : Seat) : Server C P := (s.onClosed seat .reset).close seat

instance : SessionHandler (Server C P) where
  onReady := onReady
  onFrame := onFrame
  onClosed := onClosed
  onWriteError s seat _ := s.onWriteError seat
  transport s seat := ((s.roster.get? seat).map (·.transport)).getD {}
  setTransport s seat transport :=
    { s with roster := s.roster.modify seat fun c => { c with transport } }

/-! ## Connections -/

/-- Does something with the connections. -/
def withDirectory {α : Type} (s : Server C P) (f : Directory C P → α × Directory C P) :
    α × Server C P :=
  let (a, directory) := f s.toDirectory
  (a, { s with toDirectory := directory })

/-- Sends a packet over the connection on a seat. -/
def send (s : Server C P) (seat : Seat) (packet : P) : Except ProtocolError Unit × Server C P :=
  s.withDirectory (·.send seat packet)

/-- The number of registered connections. -/
def connectionCount (s : Server C P) : Nat := s.registry.size

/-- Moves a connection to another shard. -/
def moveToShard (s : Server C P) (id : ConnectionId) (shard : ShardId) :
    Except ProtocolError Unit × Server C P :=
  s.withDirectory (·.move id shard)

/-- Moves a connection to the shard that owns a key, and names the shard. -/
def assignToOwner (s : Server C P) (id : ConnectionId) (key : UInt64) :
    Except ProtocolError ShardId × Server C P :=
  s.withDirectory (·.assign id key)

/-- Unregisters a connection and closes it. -/
def removeConnection (s : Server C P) (id : ConnectionId) : Option Seat × Server C P :=
  match s.withDirectory (·.remove id) with
  | (some seat, s) => (some seat, s.close seat)
  | (none, s) => (none, s)

/-! ## Listeners and shutdown -/

/-- Registers a listener. -/
def addListener (s : Server C P) (name : String) (listener : Listener P) :
    Except ProtocolError Unit × Server C P :=
  let (result, dispatcher) := s.dispatcher.add name listener
  (result, { s with dispatcher })

/-- Unregisters a listener. -/
def removeListener (s : Server C P) (name : String) : Except ProtocolError Bool × Server C P :=
  let (result, dispatcher) := s.dispatcher.remove name
  (result, { s with dispatcher })

/-- Accepts no more sessions and closes every registered connection. -/
def closeAll (s : Server C P) : Server C P :=
  s.registry.members.foldl close { s with shuttingDown := true }

/-- Ends the server. Listeners are unregistered last, so they hear of what ends before. -/
def shutdown (s : Server C P) : Server C P :=
  let s := s.closeAll
  { s with dispatcher := s.dispatcher.shutdown }

/-- Lets all listeners hear what waits for them, and tells what each heard. -/
def report (s : Server C P) : List (String × List (ConnectionEvent P)) × Server C P :=
  let (dispatcher, metrics) := s.dispatcher.settle s.hub.metrics
  let (heard, dispatcher) := dispatcher.report
  (heard, { s with dispatcher, hub := { s.hub with metrics } })

/-- The server as it appears in diagnostics. -/
def describe (s : Server C P) : String :=
  "Server \x7b server_id: " ++ Text.quoted s.config.serverId ++ ", registry: " ++
    s.registry.describe ++ ", .. \x7d"

end Server
end ShardMesh
