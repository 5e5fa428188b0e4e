import ShardMesh.Compression.Stage
import ShardMesh.Shard.Table

/-!
# The configuration of a node

One document configures a node: its own listener, the packet codec, the links to peers, security,
the ownership of shards, and logging. Everything has a default except what makes a peer or a shard
what it is. Durations are whole milliseconds, of which there may be more than fit into 64 bits.
-/

namespace ShardMesh

/-- The role of a node. -/
inductive NodeRole where
  | lobby
  | game
  deriving DecidableEq, Repr, Inhabited

/-- The role as it is written. -/
def NodeRole.name : NodeRole → String
  | .lobby => "lobby"
  | .game => "game"

/-- How much is logged, from least to most. -/
inductive LogLevel where
  | error
  | warn
  | info
  | debug
  | trace
  deriving DecidableEq, Repr, Inhabited

/-- The level as it is written. -/
def LogLevel.name : LogLevel → String
  | .error => "error"
  | .warn => "warn"
  | .info => "info"
  | .debug => "debug"
  | .trace => "trace"

/-- How a node listens, and who it is. -/
structure ServerConfig where
  /-- The name of the node in the mesh. -/
  serverId : String := "node-1"
  role : NodeRole := .lobby
  /-- The address to listen on. -/
  host : String := "127.0.0.1"
  port : UInt16 := 7000
  /-- Where clients are sent instead, in a handoff. -/
  publicHost : Option String := none
  publicPort : Option UInt16 := none
  /-- A connection on which nothing arrives for so long is closed. -/
  readTimeout : Nat := 10000
  /-- How long an orderly shutdown may take. -/
  shutdownTimeout : Nat := 3000
  /-- The keys that the node owns. -/
  keyRange : Option KeyRange := none
  deriving DecidableEq, Repr, Inhabited

/-- How packets are encoded. -/
structure CodecConfig where
  /-- The size of the largest packet. -/
  scratchBufferSize : UInt64 := 4096
  compression : Compression := .none
  deriving DecidableEq, Repr, Inhabited

/-- Another node. -/
structure PeerConfig where
  host : String
  port : UInt16
  publicHost : Option String := none
  publicPort : Option UInt16 := none
  role : NodeRole := .lobby
  /-- The keys that are routed to the peer. -/
  keyRange : Option KeyRange := none
  deriving DecidableEq, Repr, Inhabited

/-- Peers by name, in the order of their names. -/
structure PeerTable where
  entries : List (String × PeerConfig)
  /-- Names ascend. -/
  ascending : entries.Pairwise (fun a b => a.1 < b.1)
  deriving DecidableEq

namespace PeerTable

/-- The table without peers. -/
def empty : PeerTable := ⟨[], .nil⟩

instance : Inhabited PeerTable := ⟨empty⟩

/-- Puts a peer into its place in a row, instead of one of the same name. -/
def insertInto (name : String) (peer : PeerConfig) :
    List (String × PeerConfig) → List (String × PeerConfig)
  | [] => [(name, peer)]
  | e :: rest =>
    if name < e.1 then (name, peer) :: e :: rest
    else if name = e.1 then (name, peer) :: rest
    else e :: insertInto name peer rest

theorem mem_insertInto {name : String} {peer : PeerConfig} {row : List (String × PeerConfig)}
    {x : String × PeerConfig} (h : x ∈ insertInto name peer row) : x = (name, peer) ∨ x ∈ row := by
  induction row with
  | nil => simpa [insertInto] using h
  | cons e rest ih =>
    unfold insertInto at h
    by_cases a : name < e.1
    · simpa [a] using h
    · by_cases b : name = e.1
      · rw [if_neg a, if_pos b, List.mem_cons] at h
        exact h.imp id (List.mem_cons_of_mem e)
      · rw [if_neg a, if_neg b, List.mem_cons] at h
        rcases h with h | h
        · exact .inr (h ▸ List.mem_cons_self)
        · exact (ih h).imp id (List.mem_cons_of_mem e)

theorem ascending_insertInto {name : String} {peer : PeerConfig}
    {row : List (String × PeerConfig)} (h : row.Pairwise (fun a b => a.1 < b.1)) :
    (insertInto name peer row).Pairwise (fun a b => a.1 < b.1) := by
  induction row with
  | nil => simp [insertInto]
  | cons e rest ih =>
    have ⟨first, later⟩ := List.pairwise_cons.1 h
    unfold insertInto
    by_cases a : name < e.1
    · rw [if_pos a]
      refine List.pairwise_cons.2 ⟨fun x hx => ?_, h⟩
      rcases List.mem_cons.1 hx with hx | hx
      · exact hx ▸ a
      · exact String.lt_trans a (first x hx)
    · by_cases b : name = e.1
      · rw [if_neg a, if_pos b]
        exact List.pairwise_cons.2 ⟨fun x hx => b ▸ first x hx, later⟩
      · rw [if_neg a, if_neg b]
        refine List.pairwise_cons.2 ⟨fun x hx => ?_, ih later⟩
        rcases mem_insertInto hx with hx | hx
        · have c : e.1 ≤ name := String.not_lt.1 a
          by_cases d : e.1 < name
          · exact hx ▸ d
          · exact absurd (String.le_antisymm (String.not_lt.1 d) c) b
        · exact first x hx

/-- Adds a peer, instead of one of the same name. -/
def insert (t : PeerTable) (name : String) (peer : PeerConfig) : PeerTable :=
  ⟨insertInto name peer t.entries, ascending_insertInto t.ascending⟩

/-- The peer of a name. -/
def get? (t : PeerTable) (name : String) : Option PeerConfig :=
  (t.entries.find? (·.1 = name)).map Prod.snd

/-- The names of all peers, ascending. -/
def names (t : PeerTable) : List String := t.entries.map Prod.fst

end PeerTable

/-- How a node keeps its links to peers. -/
structure BridgeConfig where
  /-- How long a failed or lost link rests before it is dialed again. -/
  reconnectDelay : Nat := 5000
  /-- How long closing a link may take. -/
  closeTimeout : Nat := 3000
  peers : PeerTable := .empty
  deriving DecidableEq, Inhabited

/-- Certificates, and what signs handoff tokens. -/
structure SecurityConfig where
  certPath : Option String := none
  keyPath : Option String := none
  /-- Certificates that are trusted when peers are dialed. -/
  trustedCertPath : Option String := none
  /-- The name that a peer's certificate has to bear. -/
  tlsServerName : String := "localhost"
  /-- The key of all signatures. Without it there are no handoffs. -/
  handoffSecret : String := ""
  handoffExpirySeconds : UInt64 := 30
  deriving DecidableEq, Repr, Inhabited

/-- A shard and the keys it owns. -/
structure ShardConfig where
  id : ShardId
  ranges : List KeyRange := []
  deriving DecidableEq, Repr, Inhabited

/-- What is logged, and where to. -/
structure LoggingConfig where
  appName : String := "mesh-protocol"
  logLevel : LogLevel := .info
  logToConsole : Bool := true
  logToFile : Bool := false
  logFilePath : Option String := none
  jsonFormat : Bool := false
  deriving DecidableEq, Repr, Inhabited

/-- The configuration of a node. -/
structure MeshConfig where
  server : ServerConfig := {}
  codec : CodecConfig := {}
  bridge : BridgeConfig := {}
  security : SecurityConfig := {}
  shards : List ShardConfig := []
  logging : LoggingConfig := {}
  deriving DecidableEq, Inhabited

/-! ## Questions to a configuration -/

/-- The address to listen on. -/
def ServerConfig.bindAddress (c : ServerConfig) : String := c.host ++ ":" ++ toString c.port.toNat

/-- Where clients are sent in a handoff to this node. -/
def ServerConfig.publicAddress (c : ServerConfig) : String × UInt16 :=
  (c.publicHost.getD c.host, c.publicPort.getD c.port)

/-- Where clients are sent in a handoff to the peer. -/
def PeerConfig.publicAddress (p : PeerConfig) : String × UInt16 :=
  (p.publicHost.getD p.host, p.publicPort.getD p.port)

/-- Whether a key is routed to the peer. -/
def PeerConfig.ownsKey (p : PeerConfig) (key : UInt64) : Bool := p.keyRange.any (·.contains key)

/-- The first peer to which a key is routed. -/
def PeerTable.ownerOf? (t : PeerTable) (key : UInt64) : Option String :=
  (t.entries.find? fun e => e.2.ownsKey key).map Prod.fst

/-- The ranges of each shard; of several entries for a shard the last counts. -/
def MeshConfig.shardMap (c : MeshConfig) : ShardMap :=
  Dict.ofList (c.shards.map fun s => (s.id, s.ranges))

/-- The certificate and key to serve with, if both are given. -/
def SecurityConfig.tlsServer? (c : SecurityConfig) : Option (String × String) := do
  return (← c.certPath, ← c.keyPath)

/-- The name to expect and the certificates to trust when dialing, if there are any. -/
def SecurityConfig.tlsClient? (c : SecurityConfig) : Option (String × String) := do
  return (c.tlsServerName, ← c.trustedCertPath)

end ShardMesh
