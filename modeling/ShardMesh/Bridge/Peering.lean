import ShardMesh.Bridge.Progress

/-!
# Connecting to peers

A bridge connects to peers and disconnects from them, sends packets to one of them or to all, and
knows which of them it reaches.
-/

namespace ShardMesh.Bridge

variable {C P : Type} [Packet P]

/-! ## Coming and going -/

/-- Lets a link connect. A muted link that would dial breaks off. -/
def connectLink (b : Bridge C P) (link : Nat) : Except ProtocolError Unit × Bridge C P :=
  match b.links[link]? with
  | none => (.ok (), b)
  | some (peer, l) =>
    (if l.muted && !l.shutDown then .error (.unusableThreadName (listenerName peer)) else .ok (),
      b.feed link .connect)

/-- Connects to a peer, unless there is a link to it already. -/
def connect (b : Bridge C P) (peer : String) : Except ProtocolError Unit × Bridge C P :=
  match b.peers.get? peer, b.linked.get? peer with
  | none, _ => (.error (.config ("Unknown peer '" ++ peer ++ "'")), b)
  | some _, some _ => (.ok (), b)
  | some _, none =>
    let link := b.links.length
    let muted := !isThreadName (listenerName peer)
    { b with
      links := b.links ++ [(peer, ({ muted } : Link))]
      linked := b.linked.set peer link }.connectLink link

/-- Connects to peers in a row, as far as that goes. -/
def connectEach (b : Bridge C P) : List String → Except ProtocolError Unit × Bridge C P
  | [] => (.ok (), b)
  | peer :: rest =>
    match b.connect peer with
    | (.ok (), b) => b.connectEach rest
    | (.error e, b) => (.error e, b)

/-- Connects to all peers in the order of their names. -/
def connectAll (b : Bridge C P) : Except ProtocolError Unit × Bridge C P :=
  b.connectEach b.peers.names

/-- Shuts links down, and waits for the ends of their sessions. -/
def shutDown (b : Bridge C P) (links : List Nat) : Bridge C P :=
  let held := links.filterMap fun i => do b.lineOf? i (← (← b.links[i]?).2.held)
  let b := links.foldl (fun b i => b.feed i .shutDown) b
  links.foldl (fun b i => b.feed i .closed) (b.awaitCloses held)

/-- Shuts the link to a peer down for good, and says whether there was one. -/
def disconnect (b : Bridge C P) (peer : String) : Bool × Bridge C P :=
  match b.linked.get? peer with
  | none => (false, b)
  | some link => (true, { b with linked := b.linked.erase peer }.shutDown [link])

/-- Shuts all links down for good. -/
def disconnectAll (b : Bridge C P) : Bridge C P :=
  { b with linked := Dict.empty }.shutDown b.linked.values

/-! ## Sending -/

/-- Sends a packet over a link, and says whether it was accepted; if not, that is counted. -/
def sendOver (b : Bridge C P) (link : Nat) (packet : P) : Bool × Bridge C P :=
  let place := do b.lineOf? link (← (← b.links[link]?).2.sender?)
  match (place.map fun i => b.withLine i fun l =>
    let (result, client) := l.client.send packet
    (result, { l with client })) with
  | some (some (.ok ()), b) => (true, b)
  | some (_, b) => (false, { b with hub := b.hub.count (·.bridgeDroppedSend) })
  | none => (false, { b with hub := b.hub.count (·.bridgeDroppedSend) })

/-- Sends a packet to a peer, and says whether it was accepted. -/
def send (b : Bridge C P) (peer : String) (packet : P) : Bool × Bridge C P :=
  match b.linked.get? peer with
  | some link => b.sendOver link packet
  | none => (false, b)

/-- Sends a packet to every linked peer, and counts those that accepted it. -/
def broadcast (b : Bridge C P) (packet : P) : Nat × Bridge C P :=
  b.linked.values.foldl (fun (n, b) link =>
    let (accepted, b) := b.sendOver link packet
    (if accepted then n + 1 else n, b)) (0, b)

/-! ## Questions -/

/-- Whether a link is connected and its session lives. -/
def isLinkConnected (b : Bridge C P) (link : Nat) : Bool :=
  let place := do b.lines[← b.lineOf? link (← (← b.links[link]?).2.sender?)]?
  place.any (·.line.client.connected)

/-- Whether there is a connected link to a peer. -/
def isConnected (b : Bridge C P) (peer : String) : Bool :=
  (b.linked.get? peer).any b.isLinkConnected

/-- The number of connected links. -/
def connectedCount (b : Bridge C P) : Nat := (b.linked.values.filter b.isLinkConnected).length

/-- The latest link to each peer that ever had one. -/
def latestLinks (b : Bridge C P) : Dict String Nat :=
  Dict.ofList (b.links.zipIdx.map fun ((peer, _), i) => (peer, i))

/-! ## The far end -/

/-- The line on which the peer at a peer's port can be reached. -/
def peerLine? (b : Bridge C P) (peer : String) : Option Nat := do
  let config ← b.peers.get? peer
  b.lines.zipIdx.findSome? fun (w, i) =>
    if w.line.client.options.port = config.port ∧ w.line.hasPeer then some i else none

/-- Does something with the exchange of a peer that is there. -/
def withPeer {α : Type} (b : Bridge C P) (peer : String)
    (f : Client C P → Exchange → α × Exchange × Client C P) : Option α × Bridge C P :=
  match b.peerLine? peer with
  | some place =>
    let (a, b) := b.withLine place (·.withPeer f)
    (a.join, b)
  | none => (none, b)

/-- Takes out what was dialed, in alphabetical order, as links dial independently. -/
def dialed (b : Bridge C P) : List String × Bridge C P :=
  let (dialed, network) := b.network.report
  (dialed.mergeSort (· ≤ ·), { b with network })

end ShardMesh.Bridge
