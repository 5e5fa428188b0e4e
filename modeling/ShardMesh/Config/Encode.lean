import ShardMesh.Config.Decode
import ShardMesh.Error
import ShardMesh.Toml.Writer

/-!
# From configurations to documents

A configuration is encoded with all its fields in their fixed order; what is absent is left out.
Documents have integers of 64 bits with a sign, so larger numbers cannot be saved.
-/

namespace ShardMesh

namespace Encode

open Toml (Value Items)

/-- A field that is there. -/
def field (key : String) (v : Value) : Items := [(key, v)]

/-- A field that may be absent. -/
def optional {α : Type} (key : String) (f : α → Value) (x : Option α) : Items :=
  (x.map fun x => (key, f x)).toList

def number (n : UInt64) : Value := .integer n.toNat

/-- A duration. Of one that is too long 64 bits are saved. -/
def millis (duration : Nat) : Value := .integer (min duration (UInt64.size - 1) : Nat)

def port (n : UInt16) : Value := .integer n.toNat

/-- A record as a table with a header. -/
def record (fields : List Items) : Value := .table .header fields.flatten

/-- Records in a row; none is an empty array. -/
def rows {α : Type} (f : α → Value) (xs : List α) : Value := .array (!xs.isEmpty) (xs.map f)

def keyRange (r : KeyRange) : Value :=
  record [field "start" (number r.first), field "end" (number r.last)]

def compressionName : Compression → String
  | .none => "none"
  | .lz4 => "lz4"
  | .zstd => "zstd"

def server (c : ServerConfig) : Value :=
  record [field "server_id" (.string c.serverId), field "server_type" (.string c.role.name),
    field "host" (.string c.host), field "port" (port c.port),
    optional "public_host" .string c.publicHost, optional "public_port" port c.publicPort,
    field "read_timeout" (millis c.readTimeout),
    field "shutdown_timeout" (millis c.shutdownTimeout),
    optional "key_range" keyRange c.keyRange]

def codec (c : CodecConfig) : Value :=
  record [field "scratch_buffer_size" (number c.scratchBufferSize),
    field "compression" (.string (compressionName c.compression))]

def peer (p : PeerConfig) : Value :=
  record [field "host" (.string p.host), field "port" (port p.port),
    optional "public_host" .string p.publicHost, optional "public_port" port p.publicPort,
    field "server_type" (.string p.role.name), optional "key_range" keyRange p.keyRange]

def bridge (c : BridgeConfig) : Value :=
  record [field "reconnect_delay" (millis c.reconnectDelay),
    field "close_timeout" (millis c.closeTimeout),
    field "peers" (.table .header (c.peers.entries.map fun (name, p) => (name, peer p)))]

def security (c : SecurityConfig) : Value :=
  record [optional "cert_path" .string c.certPath, optional "key_path" .string c.keyPath,
    optional "trusted_cert_path" .string c.trustedCertPath,
    field "tls_server_name" (.string c.tlsServerName),
    field "handoff_secret" (.string c.handoffSecret),
    field "handoff_expiry_seconds" (number c.handoffExpirySeconds)]

def shard (c : ShardConfig) : Value :=
  record [field "id" (.integer c.id.toInt), field "ranges" (rows keyRange c.ranges)]

def logging (c : LoggingConfig) : Value :=
  record [field "app_name" (.string c.appName), field "log_level" (.string c.logLevel.name),
    field "log_to_console" (.boolean c.logToConsole), field "log_to_file" (.boolean c.logToFile),
    optional "log_file_path" .string c.logFilePath, field "json_format" (.boolean c.jsonFormat)]

def mesh (c : MeshConfig) : Items :=
  [("server", server c.server), ("codec", codec c.codec), ("bridge", bridge c.bridge),
    ("security", security c.security), ("shards", rows shard c.shards),
    ("logging", logging c.logging)]

mutual

/-- Whether all integers of a value have 64 bits with a sign. -/
def fits : Value → Bool
  | .integer n => n < (Toml.Scalar.integerBound : Int)
  | .array _ items => fitsAll items
  | .table _ items => fitsEach items
  | _ => true

def fitsAll : List Value → Bool
  | [] => true
  | v :: rest => fits v && fitsAll rest

def fitsEach : List (String × Value) → Bool
  | [] => true
  | (_, v) :: rest => fits v && fitsEach rest

end

end Encode

/-- The document that describes a configuration. -/
def MeshConfig.toToml (c : MeshConfig) : Except ProtocolError String :=
  let items := Encode.mesh c
  if Encode.fitsEach items then .ok (Toml.Writer.document items)
  else .error (.config "Failed to serialize config: out-of-range value for u64 type")

end ShardMesh
