import ShardMesh.Session.Basic

/-!
# A handler that keeps a journal

For diagnosis, a session can be handled by a journal. It writes down what it is told and when, and
otherwise does as little as a handler can do: it may send every packet back, and it may refuse the
session.
-/

namespace ShardMesh

/-- What a handler can be told. -/
inductive JournalEntry where
  /-- A session begins; says whether its transport is open. -/
  | ready (isOpen : Bool)
  | frame (bytes : Bytes)
  /-- A packet was sent back. -/
  | echo (result : Except ProtocolError Unit)
  /-- The session ended; says whether the connection was active until then. -/
  | closed (reason : DisconnectReason) (first : Bool)
  | writeError (error : ProtocolError)

/-- A handler of one session at most, with what it was told and when. -/
structure Journal (P : Type) where
  hub : Hub P
  /-- Whether packets are sent back. -/
  echoes : Bool := false
  /-- Whether sessions are refused. -/
  refuses : Bool := false
  now : Nat := 0
  /-- The entries with their times, latest first. -/
  entries : List (Nat × JournalEntry) := []
  connection : Option (Connection Unit) := none

namespace Journal

variable {P : Type} [Packet P]

/-- Writes an entry down. -/
def note (j : Journal P) (e : JournalEntry) : Journal P :=
  { j with entries := (j.now, e) :: j.entries }

/-- A session begins. -/
def onReady (j : Journal P) (transport : Transport) :
    Except (ProtocolError × Transport) Seat × Journal P :=
  let j := j.note (.ready transport.isOpen)
  if j.refuses then (.error (.custom "rejected", transport), j)
  else (.ok 0, { j with connection := some { context := (), transport } })

/-- A frame arrived; it is decoded only to be sent back. -/
def onFrame (j : Journal P) (frame : Bytes) : Journal P :=
  let j := j.note (.frame frame)
  match j.echoes, j.connection with
  | true, some c =>
    match c.receive j.hub frame with
    | (none, c, hub) => { j with connection := some c, hub }
    | (some packet, c, hub) =>
      let (result, c, hub) := c.send hub packet
      { j with connection := some c, hub }.note (.echo result)
  | _, _ => j

/-- The session ended. -/
def onClosed (j : Journal P) (reason : DisconnectReason) : Journal P :=
  match j.connection with
  | none => j
  | some c =>
    let (first, c) := c.markInactive
    { j with connection := some c }.note (.closed reason first)

/-- Changes the connection. -/
def mapConnection (j : Journal P) (f : Connection Unit → Connection Unit) : Journal P :=
  { j with connection := j.connection.map f }

instance : SessionHandler (Journal P) where
  onReady := onReady
  onFrame j _ frame := j.onFrame frame
  onClosed j _ reason := j.onClosed reason
  onWriteError j _ e := j.note (.writeError e)
  transport j _ := (j.connection.map (·.transport)).getD {}
  setTransport j _ transport := j.mapConnection ({ · with transport })
  atTime j now := { j with now }

/-- Sends a packet over the connection. -/
def send (j : Journal P) (packet : P) : Except ProtocolError Unit × Journal P :=
  match j.connection with
  | none => (.error .connectionClosed, j)
  | some c =>
    let (result, c, hub) := c.send j.hub packet
    (result, { j with connection := some c, hub })

/-- Submits bytes to the transport of the connection, whatever they are. -/
def submit (j : Journal P) (bytes : Bytes) : Except ProtocolError (Journal P) :=
  match j.connection with
  | none => .error .connectionClosed
  | some c => (c.transport.submit bytes).map fun transport =>
      { j with connection := some { c with transport } }

/-- Takes the entries out, earliest first. -/
def report (j : Journal P) : List (Nat × JournalEntry) × Journal P :=
  (j.entries.reverse, { j with entries := [] })

end Journal
end ShardMesh
