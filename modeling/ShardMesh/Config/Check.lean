import ShardMesh.Config.Basic
import ShardMesh.Config.Path
import ShardMesh.Error

/-!
# What is wrong with a configuration

Every part of a configuration says what is wrong with it, in words and in a fixed order; nothing
is wrong with a valid one. Whether the directory of a log file exists is asked of the environment.
-/

namespace ShardMesh

/-- A complaint, if there is reason for it. -/
def complainIf (reason : Bool) (complaint : String) : List String :=
  if reason then [complaint] else []

theorem mem_complainIf {reason : Bool} {complaint c : String} :
    c ∈ complainIf reason complaint ↔ reason = true ∧ c = complaint := by
  cases reason <;> simp [complainIf]

theorem complainIf_eq_nil_iff {reason : Bool} {complaint : String} :
    complainIf reason complaint = [] ↔ reason = false := by
  cases reason <;> simp [complainIf]

/-- A duration that has to lie between bounds: a number of milliseconds that it must not fall
below, and a number of whole seconds that it must not exceed. -/
def complainDuration (name : String) (duration least mostSeconds : Nat) : List String :=
  if duration < least then [name ++ s!" too short (minimum: {least}ms)"]
  else if mostSeconds < duration / 1000 then [name ++ s!" too long (maximum: {mostSeconds}s)"]
  else []

/-- What is wrong with a node's own settings. -/
def ServerConfig.complaints (c : ServerConfig) : List String :=
  (if c.serverId.isEmpty then ["Server id cannot be empty"]
    else complainIf (c.serverId.toList.contains '|')
      ("Server id '" ++ c.serverId ++ "' cannot contain '|'")) ++
  complainIf c.host.isEmpty "Server host cannot be empty" ++
  complainIf (c.publicPort = some 0) "Public port cannot be 0" ++
  complainDuration "Read timeout" c.readTimeout 100 300 ++
  complainDuration "Shutdown timeout" c.shutdownTimeout 100 60 ++
  match c.keyRange with
  | some r => complainIf (!r.isValid) ("Server key range " ++ r.text ++ " is empty (start > end)")
  | none => []

/-- What is wrong with the settings of the codec. -/
def CodecConfig.complaints (c : CodecConfig) : List String :=
  if c.scratchBufferSize.toNat < 64 then ["Scratch buffer too small (minimum: 64 bytes)"]
  else complainIf (maxUncompressed < c.scratchBufferSize.toNat)
    s!"Scratch buffer too large: {c.scratchBufferSize.toNat} bytes (maximum: {maxUncompressed})"

/-- What is wrong with one peer, as seen from a node. -/
def PeerConfig.complaints (localId name : String) (p : PeerConfig) : List String :=
  complainIf name.isEmpty "Peer id cannot be empty" ++
  complainIf (name = localId) ("Peer '" ++ name ++ "' has the same id as this server") ++
  complainIf p.host.isEmpty ("Peer '" ++ name ++ "' has an empty host") ++
  complainIf (p.port = 0) ("Peer '" ++ name ++ "' has port 0") ++
  match p.keyRange with
  | some r => complainIf (!r.isValid)
      ("Peer '" ++ name ++ "' key range " ++ r.text ++ " is empty (start > end)")
  | none => []

/-- The ranges that are routed to peers. -/
def PeerTable.owned (t : PeerTable) : List (KeyRange × String) :=
  t.entries.filterMap fun (name, p) => p.keyRange.map fun r => (r, name)

/-- What is wrong with the peers of a node, alone and together. -/
def PeerTable.complaints (localId : String) (t : PeerTable) : List String :=
  t.entries.flatMap (fun (name, p) => p.complaints localId name) ++
  match findClash? t.owned with
  | some c =>
    ["Peer key ranges overlap: '" ++ c.owner ++ "' " ++ c.range.text ++ " and '" ++ c.otherOwner ++
      "' " ++ c.otherRange.text]
  | none => []

/-- What is wrong with a node's links. -/
def BridgeConfig.complaints (localId : String) (c : BridgeConfig) : List String :=
  complainDuration "Reconnect delay" c.reconnectDelay 10 60 ++
  complainIf (c.closeTimeout < 100) "Bridge close timeout too short (minimum: 100ms)" ++
  c.peers.complaints localId

/-- What is wrong with the security settings. -/
def SecurityConfig.complaints (c : SecurityConfig) : List String :=
  complainIf (c.certPath.isSome != c.keyPath.isSome)
    "cert_path and key_path must be set together" ++
  complainIf c.tlsServerName.isEmpty "TLS server name cannot be empty" ++
  complainIf (!c.handoffSecret.isEmpty && c.handoffSecret.utf8ByteSize < 16)
    "Handoff secret too short (minimum: 16 bytes)" ++
  (if c.handoffExpirySeconds = 0 then ["Handoff expiry must be greater than 0"]
    else complainIf (3600 < c.handoffExpirySeconds)
      "Handoff expiry too long (maximum: 1 hour)")

/-- The shards that are listed although an earlier entry lists them. -/
def repeatedShards : (seen : List ShardId) → List ShardConfig → List ShardId
  | _, [] => []
  | seen, s :: rest =>
    (if s.id ∈ seen then [s.id] else []) ++ repeatedShards (s.id :: seen) rest

/-- What is wrong with the shards. -/
def MeshConfig.shardComplaints (c : MeshConfig) : List String :=
  (repeatedShards [] c.shards).map (fun id => s!"Shard {id.toInt} is listed more than once") ++
    c.shardMap.complaints

/-! ## Logging -/

/-- Whether a character is white space. -/
def isWhite (c : Char) : Bool :=
  let n := c.toNat
  (9 ≤ n && n ≤ 13) || n == 0x20 || n == 0x85 || n == 0xa0 || n == 0x1680 ||
    (0x2000 ≤ n && n ≤ 0x200a) || n == 0x2028 || n == 0x2029 || n == 0x202f || n == 0x205f ||
    n == 0x3000

/-- What is wrong with the logging settings, given which paths are directories. -/
def LoggingConfig.complaints (isDirectory : String → Bool) (c : LoggingConfig) : List String :=
  complainIf (c.appName.toList.all isWhite) "Logging app name cannot be empty" ++
  match c.logToFile, c.logFilePath with
  | true, none => ["Log file path required when log_to_file is enabled"]
  | true, some path =>
    match directoryOf? path with
    | some d => complainIf (!isDirectory d) ("Log directory " ++ d ++ " does not exist")
    | none => []
  | false, _ => []

/-! ## The whole -/

/-- What is wrong with a configuration. -/
def MeshConfig.complaints (isDirectory : String → Bool) (c : MeshConfig) : List String :=
  c.server.complaints ++ c.codec.complaints ++ c.bridge.complaints c.server.serverId ++
    c.security.complaints ++ c.shardComplaints ++ c.logging.complaints isDirectory

/-- Refuses a configuration with which something is wrong. -/
def MeshConfig.check (isDirectory : String → Bool) (c : MeshConfig) : Except ProtocolError Unit :=
  match c.complaints isDirectory with
  | [] => .ok ()
  | complaints => .error (.config
      ("Configuration validation failed:\n  - " ++ String.intercalate "\n  - " complaints))

end ShardMesh
