import ShardMesh.Config.Encode
import ShardMesh.Proofs.Toml.Document

/-!
# Configurations decoded

A record is written field by field, and what is absent is left out. When it is read, every field
that is there sets its own part of the record, and the others keep their defaults, which say that
they are absent. So each part of a configuration is decoded from what is read of its encoding, and so
is the whole (`decoded_mesh`).
-/

namespace ShardMesh

open Toml (Value Items asRead)
open Toml.Writer (hasHeader)

namespace Decoder

variable {σ α : Type}

/-! ## Simple values -/

theorem decoded_string (s : String) : string (.string s) = .ok s := rfl

theorem decoded_boolean (b : Bool) : boolean (.boolean b) = .ok b := rfl

theorem integer_of_mem {low high n : Int} (hlow : low ≤ n) (hhigh : n ≤ high) (name : String) :
    integer name low high (.integer n) = .ok n := if_pos ⟨hlow, hhigh⟩

theorem decoded_u64 (n : UInt64) : u64 (Encode.number n) = .ok n := by
  have hlt := n.toNat_lt_size
  rw [u64, Encode.number, integer_of_mem (by omega) (by omega)]
  simp only [bind, Except.bind, Int.toNat_natCast, UInt64.ofNat_toNat]
  rfl

theorem decoded_size (n : UInt64) : size (Encode.number n) = .ok n := by
  have hlt := n.toNat_lt_size
  rw [size, Encode.number, integer_of_mem (by omega) (by omega)]
  simp only [bind, Except.bind, Int.toNat_natCast, UInt64.ofNat_toNat]
  rfl

/-- A duration that fits into 64 bits. -/
theorem decoded_millis {duration : Nat} (h : duration < UInt64.size) :
    millis (Encode.millis duration) = .ok duration := by
  have hkept : Encode.millis duration = Encode.number (UInt64.ofNat duration) := by
    rw [Encode.millis, Encode.number, UInt64.toNat_ofNat_of_lt' h, Nat.min_eq_left (by omega)]
  rw [millis, hkept, decoded_u64]
  show Except.ok (UInt64.ofNat duration).toNat = _
  rw [UInt64.toNat_ofNat_of_lt' h]

theorem decoded_u16 (n : UInt16) : u16 (Encode.port n) = .ok n := by
  have hlt := n.toNat_lt_size
  rw [u16, Encode.port, integer_of_mem (by omega) (by omega)]
  simp only [bind, Except.bind, Int.toNat_natCast, UInt16.ofNat_toNat]
  rfl

theorem decoded_i32 (n : Int32) : i32 (.integer n.toInt) = .ok n := by
  rw [i32, integer_of_mem n.minValue_le_toInt n.toInt_le]
  simp only [bind, Except.bind, Int32.ofInt_toInt]
  rfl

theorem decoded_role (r : NodeRole) : role (.string r.name) = .ok r := by cases r <;> rfl

theorem decoded_compression (c : Compression) :
    compression (.string (Encode.compressionName c)) = .ok c := by cases c <;> rfl

theorem decoded_logLevel (l : LogLevel) : logLevel (.string l.name) = .ok l := by cases l <;> rfl

/-! ## Records -/

/-- Whether a table that was written is read back, whatever header it gets. -/
def Restores (d : Decoder α) (v : Value) (x : α) : Prop :=
  ∃ items, v = .table .header items ∧ ∀ origin, d (.table origin (asRead items)) = .ok x

/-- Whether the field of a key has the decoder and the effect. -/
abbrev HasField (fields : List (Field σ)) (key : String) (d : Decoder α) (put : α → σ → σ) : Prop :=
  (fields.find? (·.key = key)).map Field.set = some (field key d put).set

variable {fields : List (Field σ)} {key : String} {d : Decoder α}

theorem byKey_cons {put : α → σ → σ} (hfield : HasField fields key d put) {v : Value} {x : α}
    (hd : d v = .ok x) (items : Items) (s : σ) :
    byKey fields ((key, v) :: items) s = byKey fields items (put x s) := by
  obtain ⟨f, hf, hset⟩ := Option.map_eq_some_iff.mp hfield
  rw [byKey, List.foldlM_cons]
  dsimp only
  rw [hf]
  dsimp only
  rw [hset, field]
  dsimp only
  rw [hd]
  rfl

/-- A field with a simple value. -/
theorem byKey_field {put : α → σ → σ} (hfield : HasField fields key d put) {v : Value}
    (hv : hasHeader v = false) {x : α} (hd : d v = .ok x) (items : Items) (s : σ) :
    byKey fields (asRead (Encode.field key v ++ items)) s =
      byKey fields (asRead items) (put x s) := by
  have hown : ∀ e ∈ Encode.field key v, hasHeader e.2 = false := List.forall_mem_singleton.mpr hv
  rw [Toml.asRead_append hown]
  exact byKey_cons hfield hd (asRead items) s

/-- A field with a simple value that may be absent, and is so by default. -/
theorem byKey_optional {put : Option α → σ → σ} (hfield : HasField fields key (present d) put)
    {f : α → Value} (hf : ∀ x, hasHeader (f x) = false) (hd : ∀ x, d (f x) = .ok x) {s : σ}
    (hput : put none s = s) (x : Option α) (items : Items) :
    byKey fields (asRead (Encode.optional key f x ++ items)) s =
      byKey fields (asRead items) (put x s) := by
  cases x with
  | none => rw [hput]; rfl
  | some x =>
    have hpresent : present d (f x) = .ok (some x) := by rw [present, hd]; rfl
    exact byKey_field hfield (hf x) hpresent items s

theorem byKey_end (fields : List (Field σ)) (s : σ) : byKey fields (asRead []) s = .ok s := by
  rw [Toml.asRead_nil]
  rfl

/-- A last field that may hold a table. -/
theorem byKey_last {put : α → σ → σ} (hfield : HasField fields key d put) {v : Value} {x : α}
    (hd : d v.asRead = .ok x) (s : σ) :
    byKey fields (asRead (Encode.field key v ++ [])) s = .ok (put x s) := by
  rw [List.append_nil, Encode.field, Toml.asRead_singleton]
  exact byKey_cons hfield hd [] s

theorem byKey_lastOptional {put : Option α → σ → σ}
    (hfield : HasField fields key (present d) put) {f : α → Value}
    (hd : ∀ x, d (f x).asRead = .ok x) {s : σ} (hput : put none s = s) (x : Option α) :
    byKey fields (asRead (Encode.optional key f x ++ [])) s = .ok (put x s) := by
  cases x with
  | none =>
    rw [hput]
    exact byKey_end fields s
  | some x =>
    have hpresent : present d (f x).asRead = .ok (some x) := by rw [present, hd]; rfl
    exact byKey_last hfield hpresent s

theorem Restores.asRead {v : Value} {x : α} (h : Restores d v x) : d v.asRead = .ok x := by
  obtain ⟨items, rfl, hread⟩ := h
  exact hread _

theorem record_table {name : String} {start s : σ} {finish : σ → Except DocumentError α}
    {items : Items} {x : α} (hfields : byKey fields items start = .ok s) (hfinish : finish s = .ok x)
    (origin : Toml.Origin) : record name fields start finish (.table origin items) = .ok x := by
  show byKey fields items start >>= finish = .ok x
  rw [hfields]
  exact hfinish

theorem restores_record {name : String} {start s : σ} {finish : σ → Except DocumentError α}
    {parts : List Items} {x : α} (hfields : byKey fields (Toml.asRead parts.flatten) start = .ok s)
    (hfinish : finish s = .ok x) :
    Restores (record name fields start finish) (Encode.record parts) x :=
  ⟨parts.flatten, rfl, record_table hfields hfinish⟩

theorem restores_keyRange (r : KeyRange) : Restores keyRange (Encode.keyRange r) r := by
  refine restores_record (s := (some r.first, some r.last)) ?_ rfl
  refine (byKey_field rfl rfl (decoded_u64 r.first) _ _).trans ?_
  refine (byKey_field rfl rfl (decoded_u64 r.last) _ _).trans ?_
  exact byKey_end _ _

theorem restores_server {c : ServerConfig} (hread : c.readTimeout < UInt64.size)
    (hshutdown : c.shutdownTimeout < UInt64.size) : Restores server (Encode.server c) c := by
  refine restores_record ?_ rfl
  refine (byKey_field rfl rfl (decoded_string c.serverId) _ _).trans ?_
  refine (byKey_field rfl rfl (decoded_role c.role) _ _).trans ?_
  refine (byKey_field rfl rfl (decoded_string c.host) _ _).trans ?_
  refine (byKey_field rfl rfl (decoded_u16 c.port) _ _).trans ?_
  refine (byKey_optional rfl (fun _ => rfl) decoded_string rfl c.publicHost _).trans ?_
  refine (byKey_optional rfl (fun _ => rfl) decoded_u16 rfl c.publicPort _).trans ?_
  refine (byKey_field rfl rfl (decoded_millis hread) _ _).trans ?_
  refine (byKey_field rfl rfl (decoded_millis hshutdown) _ _).trans ?_
  refine (byKey_lastOptional rfl (fun r => (restores_keyRange r).asRead) rfl c.keyRange).trans ?_
  rfl

theorem restores_codec (c : CodecConfig) : Restores codec (Encode.codec c) c := by
  refine restores_record ?_ rfl
  refine (byKey_field rfl rfl (decoded_size c.scratchBufferSize) _ _).trans ?_
  refine (byKey_field rfl rfl (decoded_compression c.compression) _ _).trans ?_
  exact byKey_end _ _

theorem restores_peer (p : PeerConfig) : Restores peer (Encode.peer p) p := by
  refine restores_record (s := ⟨some p.host, some p.port, { p with host := "", port := 0 }⟩) ?_ rfl
  refine (byKey_field rfl rfl (decoded_string p.host) _ _).trans ?_
  refine (byKey_field rfl rfl (decoded_u16 p.port) _ _).trans ?_
  refine (byKey_optional rfl (fun _ => rfl) decoded_string rfl p.publicHost _).trans ?_
  refine (byKey_optional rfl (fun _ => rfl) decoded_u16 rfl p.publicPort _).trans ?_
  refine (byKey_field rfl rfl (decoded_role p.role) _ _).trans ?_
  refine (byKey_lastOptional rfl (fun r => (restores_keyRange r).asRead) rfl p.keyRange).trans ?_
  rfl

theorem restores_security (c : SecurityConfig) : Restores security (Encode.security c) c := by
  refine restores_record ?_ rfl
  refine (byKey_optional rfl (fun _ => rfl) decoded_string rfl c.certPath _).trans ?_
  refine (byKey_optional rfl (fun _ => rfl) decoded_string rfl c.keyPath _).trans ?_
  refine (byKey_optional rfl (fun _ => rfl) decoded_string rfl c.trustedCertPath _).trans ?_
  refine (byKey_field rfl rfl (decoded_string c.tlsServerName) _ _).trans ?_
  refine (byKey_field rfl rfl (decoded_string c.handoffSecret) _ _).trans ?_
  refine (byKey_field rfl rfl (decoded_u64 c.handoffExpirySeconds) _ _).trans ?_
  exact byKey_end _ _

theorem restores_logging (c : LoggingConfig) : Restores logging (Encode.logging c) c := by
  refine restores_record ?_ rfl
  refine (byKey_field rfl rfl (decoded_string c.appName) _ _).trans ?_
  refine (byKey_field rfl rfl (decoded_logLevel c.logLevel) _ _).trans ?_
  refine (byKey_field rfl rfl (decoded_boolean c.logToConsole) _ _).trans ?_
  refine (byKey_field rfl rfl (decoded_boolean c.logToFile) _ _).trans ?_
  refine (byKey_optional rfl (fun _ => rfl) decoded_string rfl c.logFilePath _).trans ?_
  refine (byKey_field rfl rfl (decoded_boolean c.jsonFormat) _ _).trans ?_
  exact byKey_end _ _

/-! ## Lists and tables -/

/-- Records in a row. -/
theorem decoded_rows {f : α → Value} (h : ∀ x, Restores d (f x) x) (xs : List α) :
    listOf d (Encode.rows f xs).asRead = .ok xs := by
  have hrows (xs : List α) : (Toml.rowsAsRead (xs.map f)).mapM d = .ok xs := by
    induction xs with
    | nil => rw [List.map_nil, Toml.rowsAsRead]; rfl
    | cons x xs ih =>
      obtain ⟨items, hx, hread⟩ := h x
      rw [List.map_cons, hx, Toml.rowsAsRead_cons, List.mapM_cons, hread, ih]
      rfl
  cases xs with
  | nil => rfl
  | cons x xs => exact hrows (x :: xs)

theorem restores_shard (c : ShardConfig) : Restores shard (Encode.shard c) c := by
  refine restores_record (s := (some c.id, c.ranges)) ?_ rfl
  refine (byKey_field rfl rfl (decoded_i32 c.id) _ _).trans ?_
  refine (byKey_last rfl (decoded_rows restores_keyRange c.ranges) _).trans ?_
  rfl

/-- A name that comes after all others is put at the end. -/
theorem insertInto_last {name : String} {p : PeerConfig} {row : List (String × PeerConfig)}
    (h : ∀ e ∈ row, e.1 < name) : PeerTable.insertInto name p row = row ++ [(name, p)] := by
  induction row with
  | nil => rfl
  | cons e row ih =>
    obtain ⟨he, hrow⟩ := List.forall_mem_cons.mp h
    rw [PeerTable.insertInto, if_neg (String.lt_asymm he), if_neg (String.ne_of_lt he).symm,
      ih hrow]
    rfl

/-- Peers are read in the order of their names, so each is put at the end. -/
theorem foldlM_peers (done : PeerTable) (rest : List (String × PeerConfig))
    (h : (done.entries ++ rest).Pairwise fun a b => a.1 < b.1) :
    ∃ t : PeerTable, t.entries = done.entries ++ rest ∧
      (rest.map fun e => (e.1, (Encode.peer e.2).asRead)).foldlM
        (fun (t : PeerTable) (name, v) => return t.insert name (← peer v)) done = .ok t := by
  induction rest generalizing done with
  | nil => exact ⟨done, (List.append_nil _).symm, rfl⟩
  | cons e rest ih =>
    obtain ⟨name, p⟩ := e
    have hbefore : ∀ e ∈ done.entries, e.1 < name := by
      intro e he
      exact (List.pairwise_append.mp h).2.2 e he (name, p) List.mem_cons_self
    have hlast : (done.insert name p).entries = done.entries ++ [(name, p)] :=
      insertInto_last hbefore
    rw [List.append_cons, ← hlast] at h
    obtain ⟨t, hentries, hread⟩ := ih (done.insert name p) h
    refine ⟨t, ?_, ?_⟩
    · rw [hentries, hlast, List.append_assoc]
      rfl
    · rw [List.map_cons, List.foldlM_cons]
      dsimp only
      rw [(restores_peer p).asRead]
      exact hread

theorem decoded_peers (t : PeerTable) :
    peers (Value.table .header (t.entries.map fun (name, p) => (name, Encode.peer p))).asRead =
      .ok t := by
  have hread : asRead (t.entries.map fun (name, p) => (name, Encode.peer p)) =
      t.entries.map fun e => (e.1, (Encode.peer e.2).asRead) := by
    rw [Toml.asRead_of_hasHeader (List.forall_mem_map.mpr fun e _ => rfl), List.map_map]
    rfl
  obtain ⟨t', hentries, hfold⟩ := foldlM_peers .empty t.entries t.ascending
  have hsame : t' = t := by
    cases t
    cases t'
    congr
  rw [hsame] at hfold
  rw [Value.asRead, hread]
  exact hfold

theorem restores_bridge {c : BridgeConfig} (hreconnect : c.reconnectDelay < UInt64.size)
    (hclose : c.closeTimeout < UInt64.size) : Restores bridge (Encode.bridge c) c := by
  refine restores_record ?_ rfl
  refine (byKey_field rfl rfl (decoded_millis hreconnect) _ _).trans ?_
  refine (byKey_field rfl rfl (decoded_millis hclose) _ _).trans ?_
  refine (byKey_last rfl (decoded_peers c.peers) _).trans ?_
  rfl

/-- A configuration is read back, if its durations fit into 64 bits; an empty list of shards comes
    before the tables. -/
theorem decoded_mesh {c : MeshConfig} (hread : c.server.readTimeout < UInt64.size)
    (hshutdown : c.server.shutdownTimeout < UInt64.size)
    (hreconnect : c.bridge.reconnectDelay < UInt64.size)
    (hclose : c.bridge.closeTimeout < UInt64.size) :
    mesh (.table .header (asRead (Encode.mesh c))) = .ok c := by
  obtain ⟨server, codec, bridge, security, shards, logging⟩ := c
  have hserver := (restores_server hread hshutdown).asRead
  have hcodec := (restores_codec codec).asRead
  have hbridge := (restores_bridge hreconnect hclose).asRead
  have hsecurity := (restores_security security).asRead
  have hlogging := (restores_logging logging).asRead
  have hshards := decoded_rows restores_shard shards
  have hbefore : ∀ e ∈ [("server", Encode.server server), ("codec", Encode.codec codec),
      ("bridge", Encode.bridge bridge), ("security", Encode.security security)],
      hasHeader e.2 = true := by
    simp only [List.forall_mem_cons]
    exact ⟨rfl, rfl, rfl, rfl, List.forall_mem_nil _⟩
  have hlast : ∀ e ∈ [("logging", Encode.logging logging)], hasHeader e.2 = true :=
    List.forall_mem_singleton.mpr rfl
  refine record_table ?_ rfl _
  cases shards with
  | nil =>
    have hread := Toml.asRead_middle hbefore (e := ("shards", Encode.rows Encode.shard [])) rfl
      [("logging", Encode.logging logging)]
    rw [Toml.asRead_of_hasHeader (List.forall_mem_append.mpr ⟨hbefore, hlast⟩)] at hread
    refine (congrArg (byKey _ · _) hread).trans ?_
    refine (byKey_cons rfl hshards _ _).trans ?_
    refine (byKey_cons rfl hserver _ _).trans ?_
    refine (byKey_cons rfl hcodec _ _).trans ?_
    refine (byKey_cons rfl hbridge _ _).trans ?_
    refine (byKey_cons rfl hsecurity _ _).trans ?_
    refine (byKey_cons rfl hlogging _ _).trans ?_
    rfl
  | cons shard shards =>
    have hmiddle : ∀ e ∈ [("shards", Encode.rows Encode.shard (shard :: shards))],
        hasHeader e.2 = true := List.forall_mem_singleton.mpr rfl
    have hread := Toml.asRead_of_hasHeader
      (List.forall_mem_append.mpr ⟨hbefore, List.forall_mem_append.mpr ⟨hmiddle, hlast⟩⟩)
    refine (congrArg (byKey _ · _) hread).trans ?_
    refine (byKey_cons rfl hserver _ _).trans ?_
    refine (byKey_cons rfl hcodec _ _).trans ?_
    refine (byKey_cons rfl hbridge _ _).trans ?_
    refine (byKey_cons rfl hsecurity _ _).trans ?_
    refine (byKey_cons rfl hshards _ _).trans ?_
    refine (byKey_cons rfl hlogging _ _).trans ?_
    rfl

end Decoder

end ShardMesh
