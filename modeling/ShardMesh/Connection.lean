import ShardMesh.Hub
import ShardMesh.Transport

/-!
# Connections

A connection is one end of a session: its id, its liveness, the context that the application gave
it, its traffic counters and its transport. It starts active and becomes inactive once; whoever
asks for that first is told so, and everyone later is told that it had happened before. The id is
given once.
-/

namespace ShardMesh

/-- What ended a session. -/
inductive DisconnectReason where
  /-- An orderly close by either side, or the end of the stream. -/
  | closed
  /-- No frame arrived for too long. -/
  | readTimeout
  /-- The transport failed. -/
  | reset
  /-- The stream ended inside a frame. -/
  | protocolException
  deriving DecidableEq, Repr, Inhabited

namespace DisconnectReason

/-- Whether listeners see an error rather than a plain close. -/
def isError (r : DisconnectReason) : Bool := r ≠ .closed

/-- The reason in words. -/
def text : DisconnectReason → String
  | .closed => "closed"
  | .readTimeout => "read timeout"
  | .reset => "reset"
  | .protocolException => "protocol exception"

end DisconnectReason

/-- What went over a connection, in packets and bytes, modulo 2^64. -/
structure Traffic where
  packetsSent : UInt64 := 0
  bytesSent : UInt64 := 0
  packetsReceived : UInt64 := 0
  bytesReceived : UInt64 := 0
  deriving DecidableEq, Repr, Inhabited

/-- The traffic as it appears in diagnostics. -/
def Traffic.describe (t : Traffic) : String :=
  "ConnectionStats \x7b packets_sent: " ++ toString t.packetsSent.toNat ++ ", bytes_sent: " ++
    toString t.bytesSent.toNat ++ ", packets_received: " ++ toString t.packetsReceived.toNat ++
    ", bytes_received: " ++ toString t.bytesReceived.toNat ++ " \x7d"

/-- One end of a session. -/
structure Connection (C : Type) where
  /-- The id, once it is given. -/
  id : Option ConnectionId := none
  active : Bool := true
  /-- What the application attached to the connection. -/
  context : C
  transport : Transport := {}
  traffic : Traffic := {}
  deriving DecidableEq, Repr, Inhabited

namespace Connection

variable {C P : Type} [Packet P]

/-- Gives the id; a second time that is refused. -/
def assignId (c : Connection C) (id : ConnectionId) : Except ProtocolError (Connection C) :=
  match c.id with
  | some _ => .error (.custom "Connection id already assigned")
  | none => .ok { c with id := some id }

/-- Makes the connection inactive, and says whether it was active until now. -/
def markInactive (c : Connection C) : Bool × Connection C :=
  (c.active, { c with active := false })

/-- Encodes a packet and submits its frame. On an inactive connection nothing happens. -/
def send (c : Connection C) (hub : Hub P) (packet : P) :
    Except ProtocolError Unit × Connection C × Hub P :=
  if !c.active then (.ok (), c, hub)
  else
    match hub.encode packet with
    | (.error e, hub) => (.error e, c, hub.count (·.sendFailure))
    | (.ok frame, hub) =>
      match c.transport.submit frame with
      | .error e => (.error e, c, hub.count (·.sendFailure))
      | .ok transport =>
        let size := UInt64.ofNat frame.length
        let traffic := { c.traffic with
          packetsSent := c.traffic.packetsSent + 1
          bytesSent := c.traffic.bytesSent + size }
        (.ok (), { c with transport, traffic }, hub.count (·.packetSent size))

/-- Decodes an arriving frame. -/
def receive (c : Connection C) (hub : Hub P) (frame : Bytes) :
    Option P × Connection C × Hub P :=
  let size := UInt64.ofNat frame.length
  let c := { c with traffic := { c.traffic with bytesReceived := c.traffic.bytesReceived + size } }
  match hub.decode frame with
  | (none, hub) => (none, c, hub)
  | (some packet, hub) =>
    let traffic := { c.traffic with packetsReceived := c.traffic.packetsReceived + 1 }
    (some packet, { c with traffic }, hub.count (·.packetReceived size))

/-- Closes the transport. That the connection is inactive then is for the session to report. -/
def close (c : Connection C) : Connection C := { c with transport := c.transport.close }

/-- Takes out the frames that wait; there is none to take them once the session is gone. -/
def drain (c : Connection C) : Option (List Bytes) × Connection C :=
  if c.transport.abandoned then (none, c)
  else
    let (frames, transport) := c.transport.drain
    (some frames, { c with transport })

/-- The session that would have written is gone. -/
def abandon (c : Connection C) : Connection C := { c with transport := c.transport.abandon }

/-- The connection as it appears in diagnostics. -/
def describe (c : Connection C) : String :=
  "Connection \x7b id: " ++ Text.optional (c.id.map fun id => toString id.toNat) ++ ", state: " ++
    (if c.active then "Active" else "Inactive") ++ ", stats: " ++ c.traffic.describe ++ ", .. \x7d"

end Connection

/-! ## Many connections -/

/-- A connection's place in a roster. -/
abbrev Seat := Nat

/-- The connections that an endpoint ever had, by seat. -/
structure Roster (C : Type) where
  connections : List (Connection C) := []
  deriving Repr, Inhabited

namespace Roster

variable {C P : Type} [Packet P]

/-- The connection on a seat. -/
def get? (r : Roster C) (seat : Seat) : Option (Connection C) := r.connections[seat]?

/-- Seats a connection, and says where. -/
def push (r : Roster C) (c : Connection C) : Seat × Roster C :=
  (r.connections.length, ⟨r.connections ++ [c]⟩)

/-- Puts another connection on a seat that is taken. -/
def set (r : Roster C) (seat : Seat) (c : Connection C) : Roster C := ⟨r.connections.set seat c⟩

/-- Changes the connection on a seat. -/
def modify (r : Roster C) (seat : Seat) (f : Connection C → Connection C) : Roster C :=
  ⟨r.connections.modify seat f⟩

/-- Sends a packet over the connection on a seat; on an empty seat nothing happens. -/
def send (r : Roster C) (hub : Hub P) (seat : Seat) (packet : P) :
    Except ProtocolError Unit × Roster C × Hub P :=
  match r.get? seat with
  | none => (.ok (), r, hub)
  | some c =>
    let (result, c, hub) := c.send hub packet
    (result, r.set seat c, hub)

/-- Sends a packet over every active connection on the given seats that passes a test, and counts
the successes. A connection that fails does not keep the packet from the others. -/
def broadcast (keep : Connection C → Bool) (packet : P) :
    List Seat → Roster C → Hub P → Nat × Roster C × Hub P
  | [], r, hub => (0, r, hub)
  | seat :: seats, r, hub =>
    match r.get? seat with
    | none => broadcast keep packet seats r hub
    | some c =>
      if c.active && keep c then
        match c.send hub packet with
        | (.ok (), c, hub) =>
          let (n, r, hub) := broadcast keep packet seats (r.set seat c) hub
          (n + 1, r, hub)
        | (.error _, c, hub) => broadcast keep packet seats (r.set seat c) hub
      else broadcast keep packet seats r hub

end Roster
end ShardMesh
