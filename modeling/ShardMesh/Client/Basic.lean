import ShardMesh.Client.Options
import ShardMesh.Dispatcher
import ShardMesh.Session.Basic

/-!
# The client

A client has one session in its life: the context that it was made with goes to the first
connection, and whoever begins a second session is refused. What happens to the connection goes to
the dispatcher, as at a server. A packet can be sent as long as the session lives; the probes that
come back tell how long the way is.
-/

namespace ShardMesh

/-- The dialing side. -/
structure Client (C P : Type) where
  options : ClientOptions
  hub : Hub P
  /-- What the first connection will be given. -/
  context : Option C
  connection : Option (Connection C) := none
  /-- The session lives. -/
  connected : Bool := false
  /-- No session may begin any more. -/
  closed : Bool := false
  dispatcher : Dispatcher P := {}
  /-- The latest round trip, in microseconds. -/
  roundTrip : UInt64 := 0
  /-- The present, in microseconds since 1970. -/
  clock : UInt64

namespace Client

variable {C P : Type} [Packet P]

/-- The client that is not connected yet. -/
def new (options : ClientOptions) (hub : Hub P) (context : C) (clock : UInt64) : Client C P :=
  { options, hub, context := some context, clock }

/-- Lets an event wait for the listeners. A stuck dispatcher loses it. -/
def announce (c : Client C P) (news : News P) : Client C P :=
  { c with dispatcher := (c.dispatcher.dispatch ⟨c.connection.bind (·.id), news⟩).2 }

/-! ## The session -/

/-- The session begins, unless the client is closed or had one before. -/
def onReady (c : Client C P) (transport : Transport) :
    Except (ProtocolError × Transport) Seat × Client C P :=
  if c.closed then (.error (.connectionClosed, transport.close), c)
  else
    match c.context with
    | none =>
      (.error (.custom ("Client " ++ c.options.label ++ " was already connected"), transport), c)
    | some context =>
      let c := { c with
        context := none
        connection := some { context, transport }
        connected := true
        hub := c.hub.count (·.connectionEstablished) }
      (.ok 0, c.announce .active)

/-- How long ago something was sent; nothing comes from the future. -/
def since (c : Client C P) (sentAt : UInt64) : UInt64 :=
  if c.clock < sentAt then 0 else c.clock - sentAt

/-- A frame arrived. What arrives on an inactive connection is dropped. -/
def onFrame (c : Client C P) (frame : Bytes) : Client C P :=
  match c.connection with
  | none => c
  | some conn =>
    if !conn.active then c
    else
      match conn.receive c.hub frame with
      | (none, conn, hub) => { c with connection := some conn, hub }
      | (some packet, conn, hub) =>
        let roundTrip := (Packet.ping? packet).elim c.roundTrip fun p => c.since p.sentAtMicros
        { c with connection := some conn, hub, roundTrip }.announce (.packet packet)

/-- The session ended. Only the first end counts. -/
def onClosed (c : Client C P) (reason : DisconnectReason) : Client C P :=
  match c.connection with
  | none => c
  | some conn =>
    match conn.markInactive with
    | (false, _) => c
    | (true, conn) =>
      { c with
        connection := some conn
        connected := false
        hub := c.hub.count (·.connectionClosed) }.announce
        (if reason.isError then .failed else .inactive)

/-- Changes the connection, if there is one. -/
def mapConnection (c : Client C P) (f : Connection C → Connection C) : Client C P :=
  { c with connection := c.connection.map f }

/-- Writing failed, which resets the connection. -/
def onWriteError (c : Client C P) : Client C P := (c.onClosed .reset).mapConnection (·.close)

instance : SessionHandler (Client C P) where
  onReady := onReady
  onFrame c _ frame := c.onFrame frame
  onClosed c _ reason := c.onClosed reason
  onWriteError c _ _ := c.onWriteError
  transport c _ := (c.connection.map (·.transport)).getD {}
  setTransport c _ transport := c.mapConnection ({ · with transport })

/-! ## Sending and closing -/

/-- Sends a packet, provided that the session lives. -/
def send (c : Client C P) (packet : P) : Except ProtocolError Unit × Client C P :=
  match c.connection, c.connected with
  | some conn, true =>
    let (result, conn, hub) := conn.send c.hub packet
    (result, { c with connection := some conn, hub })
  | _, _ => (.error (.notConnected c.options.label), c)

/-- Whether probes are sent once the session lives. -/
def probes (c : Client C P) : Bool :=
  c.options.keepalive.any (· ≠ 0) && c.hub.codec.registry.contains Ping.kind

/-- Sends a probe; that this fails is of no consequence. -/
def probe (c : Client C P) : Client C P := (c.send (Packet.ofPing ⟨c.clock⟩)).2

/-- Lets no session begin any more, and asks the one that lives to end. -/
def beginClose (c : Client C P) : Client C P := { c with closed := true }.mapConnection (·.close)

/-- The session is not waited for any longer. -/
def endClose (c : Client C P) : Client C P := { c with connected := false }

/-! ## Listeners -/

/-- Registers a listener. -/
def addListener (c : Client C P) (name : String) (listener : Listener P) :
    Except ProtocolError Unit × Client C P :=
  let (result, dispatcher) := c.dispatcher.add name listener
  (result, { c with dispatcher })

/-- Unregisters a listener. -/
def removeListener (c : Client C P) (name : String) : Except ProtocolError Bool × Client C P :=
  let (result, dispatcher) := c.dispatcher.remove name
  (result, { c with dispatcher })

/-- Lets all listeners hear what waits for them, and tells what each heard. -/
def report (c : Client C P) : List (String × List (ConnectionEvent P)) × Client C P :=
  let (dispatcher, metrics) := c.dispatcher.settle c.hub.metrics
  let (heard, dispatcher) := dispatcher.report
  (heard, { c with dispatcher, hub := { c.hub with metrics } })

/-- The client as it appears in diagnostics. -/
def describe (c : Client C P) : String :=
  "Client \x7b peer: " ++ Text.quoted c.options.label ++ ", connected: " ++
    Text.truth c.connected ++ ", .. \x7d"

end Client
end ShardMesh
