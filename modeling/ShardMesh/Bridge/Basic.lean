import ShardMesh.Bridge.Observer
import ShardMesh.Bridge.Settings
import ShardMesh.Client.Line
import ShardMesh.Config.Check

/-!
# The bridge into the mesh

A bridge has a link to each peer that it was asked to connect to, and one line for each dial of a
link. What the client of a line reports goes to its link, and what the link answers is done: lines
are opened and closed, and observers are told.

A link that was shut down is no longer the link of its peer, but its lines may still have something
to do; so links and lines are kept under numbers in the order in which they were made.
-/

namespace ShardMesh

/-- A line with the link that it belongs to and its generation there. -/
structure LinkLine (C P : Type) where
  link : Nat
  generation : Nat
  line : Line C P

/-- All links of a node, with what goes on around them. -/
structure Bridge (C P : Type) where
  localId : String
  peers : PeerTable
  settings : BridgeSettings
  hub : Hub P
  network : Network
  /-- The context of the n-th client, counted from zero. -/
  makeContext : Nat → C
  /-- The present, in microseconds since 1970. -/
  clock : UInt64
  /-- The number of clients that were made. -/
  clients : Nat := 0
  /-- The time that has passed, in milliseconds. -/
  now : Nat := 0
  observers : List (Observer P) := []
  /-- Every link that was ever made, with its peer. -/
  links : List (String × Link) := []
  /-- The link of each peer that has one. -/
  linked : Dict String Nat := Dict.empty
  /-- Every line that was ever opened. -/
  lines : List (LinkLine C P) := []

namespace Bridge

variable {C P : Type} [Packet P]

/-- Why no link can be kept where nothing runs in the background. -/
def noBackground : ProtocolError :=
  .config ("Server bridge requires a tokio runtime: there is no reactor running, must be called " ++
    "from the context of a Tokio 1.x runtime")

/-- The bridge of a node to its peers, or why there can be none. -/
def build (localId : String) (peers : PeerTable) (settings : BridgeSettings) (background : Bool)
    (hub : Hub P) (network : Network) (makeContext : Nat → C) (clock : UInt64) :
    Except ProtocolError (Bridge C P) :=
  match peers.complaints localId with
  | [] =>
    if background then .ok { localId, peers, settings, hub, network, makeContext, clock }
    else .error noBackground
  | complaints => .error (.config (String.intercalate "; " complaints))

/-! ## Doing what links answer -/

/-- Does something with a line, which uses the codec and the counters of the bridge. -/
def withLine {α : Type} (b : Bridge C P) (place : Nat) (f : Line C P → α × Line C P) :
    Option α × Bridge C P :=
  match b.lines[place]? with
  | none => (none, b)
  | some w =>
    let line := w.line
    let (a, line) := f { line with client := { line.client with hub := b.hub } }
    (some a, { b with hub := line.client.hub, lines := b.lines.set place { w with line } })

/-- Changes a line, which uses the codec and the counters of the bridge. -/
def mapLine (b : Bridge C P) (place : Nat) (f : Line C P → Line C P) : Bridge C P :=
  (b.withLine place fun l => ((), f l)).2

/-- The line of a generation of a link. -/
def lineOf? (b : Bridge C P) (link generation : Nat) : Option Nat :=
  b.lines.findIdx? fun w => w.link = link && w.generation = generation

/-- The name of the listener through which a link hears of its clients. -/
def listenerName (peer : String) : String := "bridge-" ++ peer

/-- Opens a line for a dial. -/
def open_ (b : Bridge C P) (link generation : Nat) (peer : String) (config : PeerConfig) :
    Bridge C P :=
  let options := ((ClientOptions.ofAddress config.host config.port).withReadTimeout
    b.settings.readTimeout).withLabel (b.localId ++ " -> " ++ peer)
  let client := Client.new options b.hub (b.makeContext b.clients) b.clock
  let (_, client) := client.addListener (listenerName peer) (Listener.always .completed)
  let (line, network) := Line.connect { client } b.network b.now
  { b with network, clients := b.clients + 1, lines := b.lines ++ [{ link, generation, line }] }

/-- Does one thing that a link asks for. -/
def apply (b : Bridge C P) (link : Nat) (peer : String) : LinkEffect P → Bridge C P
  | .dial generation =>
    match b.peers.get? peer with
    | some config => b.open_ link generation peer config
    | none => b
  | .discard => { b with clients := b.clients + 1 }
  | .close generation =>
    match b.lineOf? link generation with
    | some place => b.mapLine place (·.close b.now b.settings.closeTimeout)
    | none => b
  | .countConnect => { b with hub := b.hub.count (·.bridgeConnected) }
  | .countRetry => { b with hub := b.hub.count (·.bridgeReconnect) }
  | .notify notice =>
    let (observers, metrics) := Observer.tellAll b.hub.metrics peer notice b.observers
    { b with observers, hub := { b.hub with metrics } }

/-- Tells a link something, and does what it asks for. -/
def feed (b : Bridge C P) (link : Nat) (input : LinkInput P) : Bridge C P :=
  match b.links[link]? with
  | none => b
  | some (peer, l) =>
    let (l, effects) := l.step b.now b.settings.reconnectDelay input
    effects.foldl (fun b e => b.apply link peer e) { b with links := b.links.set link (peer, l) }

/-! ## Observers -/

/-- Registers an observer under a name of its own. -/
def addObserver (b : Bridge C P) (observer : Observer P) : Except ProtocolError (Bridge C P) :=
  if b.observers.any (·.name = observer.name) then .error (.duplicateListener observer.name)
  else .ok { b with observers := b.observers ++ [observer] }

/-- Unregisters an observer, and says whether there was one of that name. -/
def removeObserver (b : Bridge C P) (name : String) : Bool × Bridge C P :=
  (b.observers.any (·.name = name),
    { b with observers := b.observers.filter (·.name ≠ name) })

/-- What each observer was told since that was last asked, those left out who were told nothing. -/
def report (b : Bridge C P) :
    List (String × List (String × List (LinkNotice P))) × Bridge C P :=
  ((b.observers.filter (!·.told.isEmpty)).map fun o => (o.name, o.histories),
    { b with observers := b.observers.map ({ · with told := [] }) })

/-! ## Diagnostics -/

/-- A link as it appears in diagnostics. -/
def describeLink (peer : String) (config : PeerConfig) : String :=
  "BridgeConnection \x7b peer: " ++ Text.quoted peer ++ ", host: " ++ Text.quoted config.host ++
    ", port: " ++ toString config.port.toNat ++ ", .. \x7d"

/-- The bridge as it appears in diagnostics. -/
def describe (b : Bridge C P) : String :=
  "ServerBridge \x7b local_id: " ++ Text.quoted b.localId ++ ", peers: " ++
    Text.listing (b.peers.names.map Text.quoted) ++ ", links: " ++ toString b.linked.size ++
    ", .. \x7d"

end Bridge
end ShardMesh
