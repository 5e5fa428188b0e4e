import Mathlib.Data.List.Forall2
import ShardMesh.Config.Check
import ShardMesh.Proofs.Config.Decoding
import ShardMesh.Proofs.Server.Ownership

/-!
# Configurations saved

A document can hold any text and any integer of 64 bits with a sign. So a configuration is saved and
read back (`ofToml_of_toToml`) unless it has a number that is too large, and of the numbers of a valid
configuration only keys and the time for closing a link may be (`MeshConfig.fits_iff_representable`).
-/

namespace ShardMesh

open Toml (Value Items)
open Toml.Scalar (integerBound)

namespace Encode

/-! ## Integers that fit -/

theorem fitsAll_iff {values : List Value} : fitsAll values = true ↔ ∀ v ∈ values, fits v = true := by
  induction values with
  | nil => simp [fitsAll]
  | cons v values ih => rw [fitsAll, Bool.and_eq_true, ih, List.forall_mem_cons]

theorem fitsEach_iff {items : Items} : fitsEach items = true ↔ ∀ e ∈ items, fits e.2 = true := by
  induction items with
  | nil => simp [fitsEach]
  | cons e items ih => rw [fitsEach, Bool.and_eq_true, ih, List.forall_mem_cons]

theorem fits_number {n : UInt64} : fits (number n) = true ↔ n.toNat < integerBound := by
  rw [number, fits, decide_eq_true_eq, Int.ofNat_lt]

/-- A duration that is too long for 64 bits is too long for a document, too. -/
theorem fits_millis {duration : Nat} :
    fits (millis duration) = true ↔ duration < integerBound := by
  have hbound : integerBound < UInt64.size := by decide
  rw [millis, fits, decide_eq_true_eq, Int.ofNat_lt]
  omega

theorem fits_port (n : UInt16) : fits (port n) = true := by
  have hlt : n.toNat < integerBound := Nat.lt_trans n.toNat_lt_size (by decide)
  rw [port, fits, decide_eq_true_eq, Int.ofNat_lt]
  exact hlt

theorem fits_id (id : ShardId) : fits (.integer id.toInt) = true := by
  have hlt : Int32.maxValue.toInt < (integerBound : Int) := by decide
  rw [fits, decide_eq_true_eq]
  exact Int.lt_of_le_of_lt id.toInt_le hlt

theorem fits_record {parts : List Items} :
    fits (record parts) = true ↔ ∀ part ∈ parts, fitsEach part = true := by
  rw [record, fits]
  simp only [fitsEach_iff, List.mem_flatten, forall_exists_index, and_imp]
  exact ⟨fun h part hpart e he => h e part hpart he, fun h e part hpart he => h part hpart e he⟩

theorem fits_field (key : String) (v : Value) : fitsEach (field key v) = fits v := by
  simp [field, fitsEach]

theorem fits_optional {α : Type} {key : String} {f : α → Value} {x : Option α} :
    fitsEach (optional key f x) = true ↔ ∀ y ∈ x, fits (f y) = true := by
  cases x <;> simp [optional, fitsEach]

theorem fits_rows {α : Type} {f : α → Value} {xs : List α} :
    fits (rows f xs) = true ↔ ∀ x ∈ xs, fits (f x) = true := by
  rw [rows, fits, fitsAll_iff, List.forall_mem_map]

theorem fits_string (s : String) : fits (.string s) = true := rfl

theorem fits_boolean (b : Bool) : fits (.boolean b) = true := rfl

theorem fits_keyRange {r : KeyRange} :
    fits (keyRange r) = true ↔ r.first.toNat < integerBound ∧ r.last.toNat < integerBound := by
  simp [keyRange, fits_record, fits_field, fits_number]

theorem fits_server {c : ServerConfig} : fits (server c) = true ↔
    c.readTimeout < integerBound ∧ c.shutdownTimeout < integerBound ∧
      ∀ r ∈ c.keyRange, fits (keyRange r) = true := by
  simp [server, fits_record, fits_field, fits_optional, fits_string, fits_port, fits_millis]

theorem fits_codec {c : CodecConfig} :
    fits (codec c) = true ↔ c.scratchBufferSize.toNat < integerBound := by
  simp [codec, fits_record, fits_field, fits_string, fits_number]

theorem fits_peer {p : PeerConfig} :
    fits (peer p) = true ↔ ∀ r ∈ p.keyRange, fits (keyRange r) = true := by
  simp [peer, fits_record, fits_field, fits_optional, fits_string, fits_port]

theorem fits_peers {t : PeerTable} :
    fits (.table .header (t.entries.map fun (name, p) => (name, peer p))) = true ↔
      ∀ e ∈ t.entries, ∀ r ∈ e.2.keyRange, fits (keyRange r) = true := by
  rw [fits, fitsEach_iff, List.forall_mem_map]
  exact forall₂_congr fun e _ => fits_peer

theorem fits_bridge {c : BridgeConfig} : fits (bridge c) = true ↔
    c.reconnectDelay < integerBound ∧ c.closeTimeout < integerBound ∧
      ∀ e ∈ c.peers.entries, ∀ r ∈ e.2.keyRange, fits (keyRange r) = true := by
  rw [bridge, fits_record, ← fits_peers]
  simp only [List.forall_mem_cons, fits_field, fits_millis]
  simp

theorem fits_security {c : SecurityConfig} :
    fits (security c) = true ↔ c.handoffExpirySeconds.toNat < integerBound := by
  simp [security, fits_record, fits_field, fits_optional, fits_string, fits_number]

theorem fits_shard {c : ShardConfig} :
    fits (shard c) = true ↔ ∀ r ∈ c.ranges, fits (keyRange r) = true := by
  simp [shard, fits_record, fits_field, fits_rows, fits_id]

theorem fits_logging (c : LoggingConfig) : fits (logging c) = true := by
  simp [logging, fits_record, fits_field, fits_optional, fits_string, fits_boolean]

/-! ## Values that can be written -/

/-- Whether the value can be written, with at most so many levels of headers, if its integers fit. -/
def Storable (levels : Nat) (v : Value) : Prop := fits v = true → v.Writable levels

variable {levels : Nat}

theorem storable_string (s : String) : Storable levels (.string s) := fun _ =>
  Toml.writable_of_simple trivial

theorem storable_boolean (b : Bool) : Storable levels (.boolean b) := fun _ =>
  Toml.writable_of_simple trivial

theorem storable_integer {n : Int} (h : -(integerBound : Int) ≤ n) :
    Storable levels (.integer n) := by
  intro hfits
  rw [fits, decide_eq_true_eq] at hfits
  exact Toml.writable_of_simple ⟨h, hfits⟩

theorem storable_number (n : UInt64) : Storable levels (number n) :=
  storable_integer (by omega)

theorem storable_millis (duration : Nat) : Storable levels (millis duration) :=
  storable_integer (by omega)

theorem storable_port (n : UInt16) : Storable levels (port n) :=
  storable_integer (by omega)

theorem storable_id (id : ShardId) : Storable levels (.integer id.toInt) := by
  have hle : -(integerBound : Int) ≤ Int32.minValue.toInt := by decide
  exact storable_integer (Int.le_trans hle id.minValue_le_toInt)

/-- What a field may add to a record. -/
def Part (levels : Nat) (items : Items) (key : String) : Prop :=
  (items.map Prod.fst).Sublist [key] ∧ ∀ e ∈ items, Storable levels e.2

theorem part_field {key : String} {v : Value} (h : Storable levels v) :
    Part levels (field key v) key :=
  ⟨List.Sublist.refl _, List.forall_mem_singleton.mpr h⟩

theorem part_optional {α : Type} {key : String} {f : α → Value} (h : ∀ x, Storable levels (f x))
    (x : Option α) : Part levels (optional key f x) key := by
  cases x with
  | none => exact ⟨List.nil_sublist _, List.forall_mem_nil _⟩
  | some x => exact part_field (h x)

/-- A record has each of its keys once at most. -/
theorem storable_record {parts : List Items} {keys : List String}
    (hparts : List.Forall₂ (Part levels) parts keys) (hkeys : keys.Nodup) :
    Storable (levels + 1) (record parts) := by
  have hsublist : (parts.flatten.map Prod.fst).Sublist keys := by
    clear hkeys
    induction hparts with
    | nil => exact List.Sublist.refl _
    | cons hpart _ ih =>
      rw [List.flatten_cons, List.map_append]
      exact hpart.1.append ih
  have hstorable : ∀ part ∈ parts, ∀ e ∈ part, Storable levels e.2 := by
    clear hkeys hsublist
    induction hparts with
    | nil => exact List.forall_mem_nil _
    | cons hpart _ ih => exact List.forall_mem_cons.mpr ⟨hpart.2, ih⟩
  intro hfits
  refine ⟨hkeys.sublist hsublist, fun e he => ?_⟩
  obtain ⟨part, hpart, he⟩ := List.mem_flatten.mp he
  exact hstorable part hpart e he (fitsEach_iff.mp (fits_record.mp hfits part hpart) e he)

theorem storable_rows {α : Type} {f : α → Value} (htable : ∀ x, ∃ items, f x = .table .header items)
    (h : ∀ x, Storable (levels + 1) (f x)) (xs : List α) : Storable (levels + 1) (rows f xs) := by
  intro hfits
  rw [fits_rows] at hfits
  cases xs with
  | nil => exact Toml.writable_of_simple trivial
  | cons x xs =>
    refine ⟨List.cons_ne_nil _ _, List.forall_mem_map.mpr fun y hy => ?_⟩
    obtain ⟨items, hitems⟩ := htable y
    have hwritable := h y (hfits y hy)
    rw [hitems] at hwritable
    exact ⟨.header, items, hitems, hwritable⟩

/-! ## The parts of a configuration -/

theorem storable_keyRange (r : KeyRange) : Storable (levels + 1) (keyRange r) :=
  storable_record (.cons (part_field (storable_number _)) <|
    .cons (part_field (storable_number _)) .nil) (by decide)

theorem storable_server (c : ServerConfig) : Storable (levels + 2) (server c) :=
  storable_record (.cons (part_field (storable_string _)) <| .cons (part_field (storable_string _)) <|
    .cons (part_field (storable_string _)) <| .cons (part_field (storable_port _)) <|
    .cons (part_optional storable_string _) <| .cons (part_optional storable_port _) <|
    .cons (part_field (storable_millis _)) <| .cons (part_field (storable_millis _)) <|
    .cons (part_optional storable_keyRange _) .nil) (by decide)

theorem storable_codec (c : CodecConfig) : Storable (levels + 1) (codec c) :=
  storable_record (.cons (part_field (storable_number _)) <|
    .cons (part_field (storable_string _)) .nil) (by decide)

theorem storable_peer (p : PeerConfig) : Storable (levels + 2) (peer p) :=
  storable_record (.cons (part_field (storable_string _)) <| .cons (part_field (storable_port _)) <|
    .cons (part_optional storable_string _) <| .cons (part_optional storable_port _) <|
    .cons (part_field (storable_string _)) <| .cons (part_optional storable_keyRange _) .nil)
    (by decide)

/-- The names of peers are different because they ascend. -/
theorem storable_peers (t : PeerTable) :
    Storable (levels + 3) (.table .header (t.entries.map fun (name, p) => (name, peer p))) := by
  have hnodup : (t.entries.map Prod.fst).Nodup :=
    List.pairwise_map.mpr (t.ascending.imp String.ne_of_lt)
  intro hfits
  rw [fits, fitsEach_iff, List.forall_mem_map] at hfits
  refine ⟨?_, List.forall_mem_map.mpr fun e he => storable_peer e.2 (hfits e he)⟩
  rwa [List.map_map]

theorem storable_bridge (c : BridgeConfig) : Storable (levels + 4) (bridge c) :=
  storable_record (.cons (part_field (storable_millis _)) <| .cons (part_field (storable_millis _)) <|
    .cons (part_field (storable_peers _)) .nil) (by decide)

theorem storable_security (c : SecurityConfig) : Storable (levels + 1) (security c) :=
  storable_record (.cons (part_optional storable_string _) <|
    .cons (part_optional storable_string _) <| .cons (part_optional storable_string _) <|
    .cons (part_field (storable_string _)) <| .cons (part_field (storable_string _)) <|
    .cons (part_field (storable_number _)) .nil) (by decide)

theorem storable_shard (c : ShardConfig) : Storable (levels + 2) (shard c) :=
  storable_record (.cons (part_field (storable_id _)) <|
    .cons (part_field (storable_rows (fun _ => ⟨_, rfl⟩) storable_keyRange _)) .nil) (by decide)

theorem storable_logging (c : LoggingConfig) : Storable (levels + 1) (logging c) :=
  storable_record (.cons (part_field (storable_string _)) <| .cons (part_field (storable_string _)) <|
    .cons (part_field (storable_boolean _)) <| .cons (part_field (storable_boolean _)) <|
    .cons (part_optional storable_string _) <| .cons (part_field (storable_boolean _)) .nil)
    (by decide)

theorem writable_mesh {c : MeshConfig} (hfits : fitsEach (mesh c) = true) :
    ∀ e ∈ mesh c, e.2.Writable 4 := by
  have hstorable : ∀ e ∈ mesh c, Storable 4 e.2 := by
    simp only [mesh, List.forall_mem_cons]
    exact ⟨storable_server _, storable_codec _, storable_bridge _, storable_security _,
      storable_rows (fun _ => ⟨_, rfl⟩) storable_shard _, storable_logging _, List.forall_mem_nil _⟩
  exact fun e he => hstorable e he (fitsEach_iff.mp hfits e he)

end Encode

/-! ## Numbers of a valid configuration -/

/-- All ranges of keys: the node's own, those that are routed to peers, and those of the shards. -/
def MeshConfig.keyRanges (c : MeshConfig) : List KeyRange :=
  c.server.keyRange.toList ++ c.bridge.peers.owned.map Prod.fst ++ c.shards.flatMap (·.ranges)

/-- Whether the numbers for which validation has no upper bound are integers of a document. -/
structure MeshConfig.Representable (c : MeshConfig) : Prop where
  closeTimeout : c.bridge.closeTimeout < integerBound
  keys : ∀ r ∈ c.keyRanges, r.last.toNat < integerBound

theorem lt_integerBound_of_complainDuration {name : String}
    {duration least mostSeconds : Nat} (h : complainDuration name duration least mostSeconds = [])
    (hmost : mostSeconds ≤ 3600) : duration < integerBound := by
  have hbound : 3601 * 1000 ≤ integerBound := by decide
  unfold complainDuration at h
  split at h
  · cases h
  split at h
  · cases h
  · omega

/-- What validation says about the numbers of a configuration. -/
structure MeshConfig.Bounded (c : MeshConfig) : Prop where
  readTimeout : c.server.readTimeout < integerBound
  shutdownTimeout : c.server.shutdownTimeout < integerBound
  scratchBufferSize : c.codec.scratchBufferSize.toNat < integerBound
  reconnectDelay : c.bridge.reconnectDelay < integerBound
  handoffExpirySeconds : c.security.handoffExpirySeconds.toNat < integerBound
  ranges : ∀ r ∈ c.keyRanges, r.first ≤ r.last

theorem MeshConfig.mem_keyRanges {c : MeshConfig} {r : KeyRange} : r ∈ c.keyRanges ↔
    r ∈ c.server.keyRange ∨ (∃ e ∈ c.bridge.peers.entries, r ∈ e.2.keyRange) ∨
      ∃ s ∈ c.shards, r ∈ s.ranges := by
  have hpeers : r ∈ c.bridge.peers.owned.map Prod.fst ↔
      ∃ e ∈ c.bridge.peers.entries, r ∈ e.2.keyRange := by
    simp only [PeerTable.owned, List.mem_map, List.mem_filterMap, Option.map_eq_some_iff]
    constructor
    · rintro ⟨_, ⟨e, he, r, hr, rfl⟩, rfl⟩
      exact ⟨e, he, hr⟩
    · rintro ⟨e, he, hr⟩
      exact ⟨(r, e.1), ⟨e, he, r, hr, rfl⟩, rfl⟩
  rw [keyRanges, List.append_assoc, List.mem_append, List.mem_append, Option.mem_toList, hpeers,
    List.mem_flatMap, Option.mem_def]

/-- Which numbers a configuration has. -/
theorem Encode.fitsEach_mesh_iff {c : MeshConfig} : fitsEach (mesh c) = true ↔
    c.server.readTimeout < integerBound ∧ c.server.shutdownTimeout < integerBound ∧
      c.codec.scratchBufferSize.toNat < integerBound ∧
      c.bridge.reconnectDelay < integerBound ∧ c.bridge.closeTimeout < integerBound ∧
      c.security.handoffExpirySeconds.toNat < integerBound ∧
      ∀ r ∈ c.keyRanges, r.first.toNat < integerBound ∧ r.last.toNat < integerBound := by
  have hrows : fits (rows shard c.shards) = true ↔
      ∀ s ∈ c.shards, ∀ r ∈ s.ranges, fits (keyRange r) = true := by
    rw [fits_rows]
    exact forall₂_congr fun s _ => fits_shard
  rw [fitsEach_iff, mesh]
  simp only [List.forall_mem_cons, fits_server, fits_codec, fits_bridge, fits_security, hrows,
    fits_logging, ← fits_keyRange, MeshConfig.mem_keyRanges]
  constructor
  · rintro ⟨⟨hread, hshutdown, hserver⟩, hscratch, ⟨hreconnect, hclose, hpeers⟩, hexpiry,
      hshards, -⟩
    refine ⟨hread, hshutdown, hscratch, hreconnect, hclose, hexpiry, ?_⟩
    rintro r (hr | ⟨e, he, hr⟩ | ⟨s, hs, hr⟩)
    · exact hserver r hr
    · exact hpeers e he r hr
    · exact hshards s hs r hr
  · rintro ⟨hread, hshutdown, hscratch, hreconnect, hclose, hexpiry, hranges⟩
    exact ⟨⟨hread, hshutdown, fun r hr => hranges r (.inl hr)⟩, hscratch,
      ⟨hreconnect, hclose, fun e he r hr => hranges r (.inr (.inl ⟨e, he, hr⟩))⟩, hexpiry,
      fun s hs r hr => hranges r (.inr (.inr ⟨s, hs, hr⟩)), trivial, List.forall_mem_nil _⟩

/-- A configuration that was saved is read back. -/
theorem ofToml_of_toToml {c : MeshConfig} {text : String} (h : c.toToml = .ok text) :
    MeshConfig.ofToml text = .ok c := by
  have hbound : integerBound < UInt64.size := by decide
  rw [MeshConfig.toToml] at h
  split at h
  · rename_i hfits
    have hnodup : ((Encode.mesh c).map Prod.fst).Nodup := by
      show ["server", "codec", "bridge", "security", "shards", "logging"].Nodup
      decide
    obtain ⟨hread, hshutdown, -, hreconnect, hclose, -⟩ := Encode.fitsEach_mesh_iff.mp hfits
    cases h
    rw [MeshConfig.ofToml, Toml.document?_document (by decide) hnodup (Encode.writable_mesh hfits)]
    exact Decoder.decoded_mesh (Nat.lt_trans hread hbound) (Nat.lt_trans hshutdown hbound)
      (Nat.lt_trans hreconnect hbound) (Nat.lt_trans hclose hbound)
  · cases h

theorem ServerConfig.valid_keyRange {c : ServerConfig} (h : c.complaints = []) :
    ∀ r ∈ c.keyRange, r.first ≤ r.last := by
  intro r hr
  obtain ⟨-, hrange⟩ := List.append_eq_nil_iff.mp h
  rw [Option.mem_def.mp hr] at hrange
  exact KeyRange.isValid_iff.mp (by simpa using complainIf_eq_nil_iff.mp hrange)

theorem PeerTable.valid_keyRange {localId : String} {t : PeerTable} (h : t.complaints localId = []) :
    ∀ e ∈ t.entries, ∀ r ∈ e.2.keyRange, r.first ≤ r.last := by
  intro e he r hr
  have hpeer := List.flatMap_eq_nil_iff.mp (List.append_eq_nil_iff.mp h).1 e he
  obtain ⟨-, hrange⟩ := List.append_eq_nil_iff.mp hpeer
  rw [Option.mem_def.mp hr] at hrange
  exact KeyRange.isValid_iff.mp (by simpa using complainIf_eq_nil_iff.mp hrange)

theorem MeshConfig.valid_shards {c : MeshConfig} (h : c.shardComplaints = []) :
    ∀ s ∈ c.shards, ∀ r ∈ s.ranges, r.first ≤ r.last := by
  obtain ⟨honce, hmap⟩ := List.append_eq_nil_iff.mp h
  have hgood := (ShardMap.complaints_eq_nil_iff c.shardMap.ascending_perm).mp hmap
  exact ((MeshConfig.shardMap_good_iff (List.map_eq_nil_iff.mp honce)).mp hgood).valid

theorem ServerConfig.timeouts_lt {c : ServerConfig} (h : c.complaints = []) :
    c.readTimeout < integerBound ∧ c.shutdownTimeout < integerBound := by
  unfold complaints at h
  simp only [List.append_eq_nil_iff] at h
  obtain ⟨⟨⟨-, hread⟩, hshutdown⟩, -⟩ := h
  exact ⟨lt_integerBound_of_complainDuration hread (by decide),
    lt_integerBound_of_complainDuration hshutdown (by decide)⟩

theorem CodecConfig.size_lt {c : CodecConfig} (h : c.complaints = []) :
    c.scratchBufferSize.toNat < integerBound := by
  have hbound : maxUncompressed < integerBound := by decide
  unfold complaints at h
  split at h
  · cases h
  · have hle := complainIf_eq_nil_iff.mp h
    rw [decide_eq_false_iff_not] at hle
    omega

theorem SecurityConfig.expiry_lt {c : SecurityConfig} (h : c.complaints = []) :
    c.handoffExpirySeconds.toNat < integerBound := by
  have hbound : 3600 < integerBound := by decide
  obtain ⟨-, hexpiry⟩ := List.append_eq_nil_iff.mp h
  split at hexpiry
  · cases hexpiry
  · have hle := complainIf_eq_nil_iff.mp hexpiry
    rw [decide_eq_false_iff_not, UInt64.not_lt] at hle
    exact Nat.lt_of_le_of_lt (UInt64.le_iff_toNat_le.mp hle) hbound

/-- Validation leaves two kinds of numbers without an upper bound. -/
theorem MeshConfig.fits_iff_representable {isDirectory : String → Bool} {c : MeshConfig}
    (h : c.complaints isDirectory = []) :
    Encode.fitsEach (Encode.mesh c) = true ↔ c.Representable := by
  simp only [complaints, List.append_eq_nil_iff] at h
  obtain ⟨⟨⟨⟨⟨hserver, hcodec⟩, hbridge⟩, hsecurity⟩, hshards⟩, -⟩ := h
  obtain ⟨hbridge, hpeers⟩ := List.append_eq_nil_iff.mp hbridge
  have hreconnect := lt_integerBound_of_complainDuration (List.append_eq_nil_iff.mp hbridge).1
    (by decide)
  have hranges : ∀ r ∈ c.keyRanges, r.first ≤ r.last := by
    intro r hr
    rcases mem_keyRanges.mp hr with hr | ⟨e, he, hr⟩ | ⟨s, hs, hr⟩
    · exact ServerConfig.valid_keyRange hserver r hr
    · exact PeerTable.valid_keyRange hpeers e he r hr
    · exact valid_shards hshards s hs r hr
  obtain ⟨hread, hshutdown⟩ := ServerConfig.timeouts_lt hserver
  rw [Encode.fitsEach_mesh_iff]
  constructor
  · rintro ⟨-, -, -, -, hclose, -, hkeys⟩
    exact ⟨hclose, fun r hr => (hkeys r hr).2⟩
  · rintro ⟨hclose, hkeys⟩
    refine ⟨hread, hshutdown, CodecConfig.size_lt hcodec, hreconnect, hclose,
      SecurityConfig.expiry_lt hsecurity, fun r hr => ⟨?_, hkeys r hr⟩⟩
    exact Nat.lt_of_le_of_lt (UInt64.le_iff_toNat_le.mp (hranges r hr)) (hkeys r hr)

/-- A valid configuration is saved and read back unchanged if its keys and the time for closing a
    link are integers of a document. Otherwise saving is refused. -/
theorem saved_if_representable (isDirectory : String → Bool) (c : MeshConfig)
    (h : c.complaints isDirectory = []) :
    (c.Representable → ∃ text, c.toToml = .ok text ∧ MeshConfig.ofToml text = .ok c) ∧
    (¬c.Representable →
      c.toToml = .error (.config "Failed to serialize config: out-of-range value for u64 type")) := by
  have hfits := MeshConfig.fits_iff_representable h
  constructor
  · intro hc
    have hsaved : c.toToml = .ok (Toml.Writer.document (Encode.mesh c)) := by
      rw [MeshConfig.toToml, if_pos (hfits.mpr hc)]
    exact ⟨_, hsaved, ofToml_of_toToml hsaved⟩
  · intro hc
    rw [MeshConfig.toToml, if_neg fun hall => hc (hfits.mp hall)]

/-- A node that owns all keys of 63 bits, with a peer whose name needs escapes and a shard. -/
def withLargestKeys : MeshConfig :=
  { server := { keyRange := some ⟨0, 9223372036854775807⟩ }
    bridge := { peers := PeerTable.empty.insert "a \"b\"\\'c'\n" { host := "é", port := 7001 } }
    shards := [⟨-5, [⟨3, 9⟩]⟩] }

theorem saved_with_largest_keys :
    withLargestKeys.complaints (fun _ => false) = [] ∧
    ∃ text, withLargestKeys.toToml = .ok text ∧ MeshConfig.ofToml text = .ok withLargestKeys := by
  have hvalid : withLargestKeys.complaints (fun _ => false) = [] := by decide +kernel
  have hkeys : withLargestKeys.keyRanges = [⟨0, 9223372036854775807⟩, ⟨3, 9⟩] := by decide +kernel
  have hrepresentable : withLargestKeys.Representable := by
    refine ⟨by decide, ?_⟩
    rw [hkeys]
    exact List.forall_mem_cons.mpr ⟨by decide, List.forall_mem_singleton.mpr (by decide)⟩
  exact ⟨hvalid, (saved_if_representable (fun _ => false) withLargestKeys hvalid).1 hrepresentable⟩

/-- A node that owns all keys is valid, and cannot be saved. -/
theorem not_saved_with_all_keys :
    let c : MeshConfig := { server := { keyRange := some ⟨0, 18446744073709551615⟩ } }
    c.complaints (fun _ => false) = [] ∧
      c.toToml = .error (.config "Failed to serialize config: out-of-range value for u64 type") := by
  intro c
  have hlarge : Encode.fitsEach (Encode.mesh c) = false := by decide +kernel
  refine ⟨by decide +kernel, ?_⟩
  rw [MeshConfig.toToml, hlarge]
  rfl

end ShardMesh
