import ShardMesh.Config.Basic
import ShardMesh.Text.Quoted
import ShardMesh.Toml.Reader

/-!
# From documents to configurations

A decoder turns a value into something with a meaning or says why the value does not fit. A record
is decoded from a table, whose unknown keys do not count, or from an array that gives its fields in
order; what is not given keeps its default.
-/

namespace ShardMesh

/-- Why a document is no configuration. -/
inductive DocumentError where
  /-- The text is no document. -/
  | malformed
  /-- A value does not fit, for a reason that may go unsaid. -/
  | unfit (reason : Option String)
  deriving DecidableEq, Repr, Inhabited

/-- Turns a value into something, or refuses it. -/
abbrev Decoder (α : Type) := Toml.Value → Except DocumentError α

namespace Decoder

/-- Refuses with a reason. -/
def refuse {α : Type} (reason : String) : Except DocumentError α := .error (.unfit (some reason))

/-- A name between backquotes. -/
def named (name : String) : String := "\x60" ++ name ++ "\x60"

/-- What a value is, in words. -/
def describe : Toml.Value → String
  | .string s => "string " ++ Text.quoted s
  | .integer n => "integer " ++ named (toString n)
  | .float x => "floating point " ++ named x.text
  | .boolean b => "boolean " ++ named (Text.truth b)
  | .array .. => "sequence"
  | .datetime _ | .table .. => "map"

/-- Refuses a value of another type. -/
def mistyped {α : Type} (v : Toml.Value) (expected : String) : Except DocumentError α :=
  refuse ("invalid type: " ++ describe v ++ ", expected " ++ expected)

/-! ## Simple values -/

/-- A text. -/
def string : Decoder String
  | .string s => .ok s
  | v => mistyped v "a string"

/-- A truth value. -/
def boolean : Decoder Bool
  | .boolean b => .ok b
  | v => mistyped v "a boolean"

/-- An integer from a range, which has a name. -/
def integer (name : String) (low high : Int) : Decoder Int
  | .integer n =>
    if low ≤ n ∧ n ≤ high then .ok n
    else refuse ("invalid value: " ++ describe (.integer n) ++ ", expected " ++ name)
  | v => mistyped v name

def u16 : Decoder UInt16 := fun v =>
  return UInt16.ofNat (← integer "u16" 0 (UInt16.size - 1 : Nat) v).toNat
def u64 : Decoder UInt64 := fun v =>
  return UInt64.ofNat (← integer "u64" 0 (UInt64.size - 1 : Nat) v).toNat
def size : Decoder UInt64 := fun v =>
  return UInt64.ofNat (← integer "usize" 0 (UInt64.size - 1 : Nat) v).toNat
def millis : Decoder Nat := fun v => return (← u64 v).toNat
def i32 : Decoder Int32 := fun v =>
  return Int32.ofInt (← integer "i32" Int32.minValue.toInt Int32.maxValue.toInt v)

/-- A value that may be left out; if it is there, it has to fit. -/
def present {α : Type} (d : Decoder α) : Decoder (Option α) := fun v => return some (← d v)

/-- Values in a row. -/
def listOf {α : Type} (d : Decoder α) : Decoder (List α)
  | .array _ items => items.mapM d
  | v => mistyped v "a sequence"

/-- The names of alternatives, in words. -/
def alternatives : List String → String
  | [a, b] => named a ++ " or " ++ named b
  | names => "one of " ++ String.intercalate ", " (names.map named)

/-- Whether a value can stand where nothing is expected. -/
def isVoid : Toml.Value → Bool
  | .array _ items => items.isEmpty
  | .table _ items => items.isEmpty
  | _ => false

/-- One of several names, alone or as the only key of a table with nothing in it. -/
def oneOf {α : Type} (choices : List (String × α)) : Decoder α :=
  let choose (name : String) : Except DocumentError α :=
    match choices.find? (·.1 = name) with
    | some (_, choice) => .ok choice
    | none => refuse ("unknown variant " ++ named name ++ ", expected " ++
        alternatives (choices.map Prod.fst))
  fun
  | .string s => choose s
  | .table _ [(name, v)] => do
    let choice ← choose name
    if isVoid v then .ok choice else .error (.unfit none)
  | _ => .error (.unfit none)

/-! ## Records -/

/-- A field of a record under construction. -/
structure Field (σ : Type) where
  key : String
  /-- Whether an array that gives the fields in order may end before this one. -/
  optional : Bool := true
  /-- Decodes the field into the record. -/
  set : Toml.Value → σ → Except DocumentError σ

/-- A field with a decoder for its value. -/
def field {σ α : Type} (key : String) (d : Decoder α) (put : α → σ → σ) : Field σ :=
  { key, set := fun v s => return put (← d v) s }

/-- A field that has no default. -/
def required {σ α : Type} (key : String) (d : Decoder α) (put : α → σ → σ) : Field σ :=
  { field key d put with optional := false }

/-- Sets fields by their keys, in the order of the table. -/
def byKey {σ : Type} (fields : List (Field σ)) (items : Toml.Items) (start : σ) :
    Except DocumentError σ :=
  items.foldlM (fun s (key, v) =>
    match fields.find? (·.key = key) with
    | some f => f.set v s
    | none => .ok s) start

/-- Sets fields by their places. -/
def byPlace {σ : Type} (title : String) : (place : Nat) → List (Field σ) → List Toml.Value → σ →
    Except DocumentError σ
  | _, [], _, s => .ok s
  | place, f :: fields, v :: items, s => do byPlace title (place + 1) fields items (← f.set v s)
  | place, f :: fields, [], s =>
    if f.optional then byPlace title (place + 1) fields [] s
    else refuse (s!"invalid length {place}, expected " ++ title)

/-- The key under which a date stands when a table is expected. -/
def datetimeKey : String := "$__toml_private_datetime"

/-- A record with the given name and fields. -/
def record {σ α : Type} (name : String) (fields : List (Field σ)) (start : σ)
    (finish : σ → Except DocumentError α) : Decoder α
  | .table _ items => do finish (← byKey fields items start)
  | .datetime text => do finish (← byKey fields [(datetimeKey, .string text)] start)
  | .array _ items => do
    finish (← byPlace s!"struct {name} with {fields.length} elements" 0 fields items start)
  | v => mistyped v ("struct " ++ name)

/-- A field that has to be there in the end. -/
def demand {α : Type} (key : String) : Option α → Except DocumentError α
  | some x => .ok x
  | none => refuse ("missing field " ++ named key)

/-! ## The parts of a configuration -/

def keyRange : Decoder KeyRange :=
  record "OwnershipRange"
    [required "start" u64 fun x (s : Option UInt64 × Option UInt64) => (some x, s.2),
      required "end" u64 fun x s => (s.1, some x)]
    (none, none) fun s => return ⟨← demand "start" s.1, ← demand "end" s.2⟩

def role : Decoder NodeRole := oneOf [("lobby", .lobby), ("game", .game)]

def compression : Decoder Compression := oneOf [("none", .none), ("lz4", .lz4), ("zstd", .zstd)]

/-- A level is written by name, in any case, or by number. -/
def logLevel : Decoder LogLevel := fun v => do
  let name ← string v
  let byNumber := (Text.number? UInt64.size name.toList).bind fun n =>
    [LogLevel.error, .warn, .info, .debug, .trace][n - 1]?.filter fun _ => n ≠ 0
  let byName := [LogLevel.error, .warn, .info, .debug, .trace].find? fun level =>
    level.name.toList = name.toList.map Char.toLower
  match byNumber.orElse fun _ => byName with
  | some level => .ok level
  | none => refuse ("unknown log level '" ++ name ++ "'")

def server : Decoder ServerConfig :=
  record "ServerConfig" [
      field "server_id" string fun x s => { s with serverId := x },
      field "server_type" role fun x s => { s with role := x },
      field "host" string fun x s => { s with host := x },
      field "port" u16 fun x s => { s with port := x },
      field "public_host" (present string) fun x s => { s with publicHost := x },
      field "public_port" (present u16) fun x s => { s with publicPort := x },
      field "read_timeout" millis fun x s => { s with readTimeout := x },
      field "shutdown_timeout" millis fun x s => { s with shutdownTimeout := x },
      field "key_range" (present keyRange) fun x s => { s with keyRange := x }]
    {} .ok

def codec : Decoder CodecConfig :=
  record "CodecConfig" [
      field "scratch_buffer_size" size fun x s => { s with scratchBufferSize := x },
      field "compression" compression fun x s => { s with compression := x }]
    {} .ok

/-- A peer whose address may still be missing. -/
structure PartialPeer where
  host : Option String := none
  port : Option UInt16 := none
  peer : PeerConfig := { host := "", port := 0 }

def peer : Decoder PeerConfig :=
  record "RemoteServerConfig" [
      required "host" string fun x (s : PartialPeer) => { s with host := some x },
      required "port" u16 fun x s => { s with port := some x },
      field "public_host" (present string) fun x s => { s with peer.publicHost := x },
      field "public_port" (present u16) fun x s => { s with peer.publicPort := x },
      field "server_type" role fun x s => { s with peer.role := x },
      field "key_range" (present keyRange) fun x s => { s with peer.keyRange := x }]
    {} fun s =>
      return { s.peer with host := ← demand "host" s.host, port := ← demand "port" s.port }

def peers : Decoder PeerTable
  | .table _ items => items.foldlM (fun t (name, v) => return t.insert name (← peer v)) .empty
  | .datetime text => do return PeerTable.empty.insert datetimeKey (← peer (.string text))
  | v => mistyped v "a map"

def bridge : Decoder BridgeConfig :=
  record "BridgeConfig" [
      field "reconnect_delay" millis fun x s => { s with reconnectDelay := x },
      field "close_timeout" millis fun x s => { s with closeTimeout := x },
      field "peers" peers fun x s => { s with peers := x }]
    {} .ok

def security : Decoder SecurityConfig :=
  record "SecurityConfig" [
      field "cert_path" (present string) fun x s => { s with certPath := x },
      field "key_path" (present string) fun x s => { s with keyPath := x },
      field "trusted_cert_path" (present string) fun x s => { s with trustedCertPath := x },
      field "tls_server_name" string fun x s => { s with tlsServerName := x },
      field "handoff_secret" string fun x s => { s with handoffSecret := x },
      field "handoff_expiry_seconds" u64 fun x s => { s with handoffExpirySeconds := x }]
    {} .ok

def shard : Decoder ShardConfig :=
  record "ShardConfig" [
      required "id" i32 fun x (s : Option ShardId × List KeyRange) => (some x, s.2),
      field "ranges" (listOf keyRange) fun x s => (s.1, x)]
    (none, []) fun s => return { id := ← demand "id" s.1, ranges := s.2 }

def logging : Decoder LoggingConfig :=
  record "LoggingConfig" [
      field "app_name" string fun x s => { s with appName := x },
      field "log_level" logLevel fun x s => { s with logLevel := x },
      field "log_to_console" boolean fun x s => { s with logToConsole := x },
      field "log_to_file" boolean fun x s => { s with logToFile := x },
      field "log_file_path" (present string) fun x s => { s with logFilePath := x },
      field "json_format" boolean fun x s => { s with jsonFormat := x }]
    {} .ok

def mesh : Decoder MeshConfig :=
  record "MeshConfig" [
      field "server" server fun x s => { s with server := x },
      field "codec" codec fun x s => { s with codec := x },
      field "bridge" bridge fun x s => { s with bridge := x },
      field "security" security fun x s => { s with security := x },
      field "shards" (listOf shard) fun x s => { s with shards := x },
      field "logging" logging fun x s => { s with logging := x }]
    {} .ok

end Decoder

/-- The configuration that a document describes. -/
def MeshConfig.ofToml (text : String) : Except DocumentError MeshConfig :=
  match Toml.Reader.document? text with
  | some items => Decoder.mesh (.table .header items)
  | none => .error .malformed

end ShardMesh
