import ShardMesh.Compression.Standard
import ShardMesh.Proofs.Shard.Table
import ShardMesh.Server

/-!
# Ownership by configuration

A configuration lists shards with their ranges, and a server that is built from it owns keys by a map.
The map has one place for each shard, so of several entries for a shard the last one counts, and the
ranges of the others are lost. The check of a configuration reports a shard that is listed twice; the
building of a server does not look for it. Where no shard is listed twice, a server is built exactly
if all ranges can be honoured, and honours them.
-/

namespace ShardMesh

/-! ## Entries that count -/

/-- An entry of a configuration whose shard no later entry names. -/
def MeshConfig.ListsLast (c : MeshConfig) (s : ShardConfig) : Prop :=
  ∃ before after, c.shards = before ++ s :: after ∧ ∀ other ∈ after, other.id ≠ s.id

/-- A shard has the ranges of its last entry. -/
theorem MeshConfig.get?_shardMap {c : MeshConfig} {id : ShardId} {ranges : List KeyRange} :
    c.shardMap.get? id = some ranges ↔ c.ListsLast ⟨id, ranges⟩ := by
  rw [shardMap, Dict.get?_ofList_eq_some_iff]
  constructor
  · rintro ⟨before, after, hshards, hafter⟩
    obtain ⟨first, rest, hfirst, rfl, hrest⟩ := List.map_eq_append_iff.mp hshards
    obtain ⟨⟨id', ranges'⟩, last, rfl, hentry, rfl⟩ := List.map_eq_cons_iff.mp hrest
    cases hentry
    exact ⟨first, last, hfirst, fun other hother => hafter _ (List.mem_map_of_mem hother)⟩
  · rintro ⟨before, after, hshards, hafter⟩
    refine ⟨before.map fun s => (s.id, s.ranges), after.map fun s => (s.id, s.ranges), ?_, ?_⟩
    · rw [hshards, List.map_append, List.map_cons]
    · intro e he
      obtain ⟨other, hother, rfl⟩ := List.mem_map.mp he
      exact hafter other hother

/-- A key is owned by the shards whose last entries have a range with it. -/
theorem MeshConfig.owns_iff {c : MeshConfig} {id : ShardId} {key : UInt64} :
    c.shardMap.Owns id key ↔
      ∃ s, c.ListsLast s ∧ s.id = id ∧ ∃ r ∈ s.ranges, r.contains key = true := by
  constructor
  · rintro ⟨ranges, hget, howns⟩
    exact ⟨⟨id, ranges⟩, get?_shardMap.mp hget, rfl, howns⟩
  · rintro ⟨⟨id, ranges⟩, hlast, rfl, howns⟩
    exact ⟨ranges, get?_shardMap.mpr hlast, howns⟩

/-! ## Entries that are listed once -/

theorem repeatedShards_eq_nil_iff {seen : List ShardId} {shards : List ShardConfig} :
    repeatedShards seen shards = [] ↔
      (∀ s ∈ shards, s.id ∉ seen) ∧ (shards.map (·.id)).Nodup := by
  induction shards generalizing seen with
  | nil => simp [repeatedShards]
  | cons s rest ih =>
    rw [repeatedShards, List.append_eq_nil_iff, ih, List.forall_mem_cons, List.map_cons,
      List.nodup_cons]
    have hhead : (if s.id ∈ seen then [s.id] else []) = [] ↔ s.id ∉ seen := by
      split <;> simp [*]
    have hrest : (∀ other ∈ rest, other.id ∉ s.id :: seen) ↔
        (∀ other ∈ rest, other.id ∉ seen) ∧ s.id ∉ rest.map (·.id) := by
      simp only [List.mem_cons, not_or, List.mem_map, not_exists, not_and]
      exact ⟨fun h => ⟨fun other hother => (h other hother).2, fun other hother => (h other hother).1⟩,
        fun h other hother => ⟨h.2 other hother, h.1 other hother⟩⟩
    rw [hhead, hrest]
    exact ⟨fun ⟨hs, ⟨hseen, hid⟩, hnodup⟩ => ⟨⟨hs, hseen⟩, hid, hnodup⟩,
      fun ⟨⟨hs, hseen⟩, hid, hnodup⟩ => ⟨hs, ⟨hseen, hid⟩, hnodup⟩⟩

/-- If no shard is listed twice, every entry counts. -/
theorem MeshConfig.listsLast_iff {c : MeshConfig} (h : repeatedShards [] c.shards = [])
    {s : ShardConfig} : c.ListsLast s ↔ s ∈ c.shards := by
  constructor
  · rintro ⟨before, after, hshards, -⟩
    rw [hshards]
    exact List.mem_append_right _ List.mem_cons_self
  · intro hs
    obtain ⟨before, after, hshards⟩ := List.append_of_mem hs
    have hnodup := (repeatedShards_eq_nil_iff.mp h).2
    rw [hshards, List.map_append, List.map_cons] at hnodup
    have hafter := (List.nodup_cons.mp (List.nodup_append.mp hnodup).2.1).1
    exact ⟨before, after, hshards, fun other hother heq =>
      hafter (heq ▸ List.mem_map_of_mem hother)⟩

/-- What is asked of the shards of a configuration that lists none twice. -/
structure MeshConfig.Honourable (c : MeshConfig) : Prop where
  unreserved : ∀ s ∈ c.shards, s.id ≠ unassignedShard
  valid : ∀ s ∈ c.shards, ∀ r ∈ s.ranges, r.first ≤ r.last
  disjoint : (c.shards.flatMap (·.ranges)).Pairwise KeyRange.Disjoint

theorem MeshConfig.shardMap_good_iff {c : MeshConfig} (h : repeatedShards [] c.shards = []) :
    c.shardMap.Good ↔ c.Honourable := by
  have hentries : c.shardMap.entries = c.shards.map fun s => (s.id, s.ranges) := by
    refine Dict.entries_ofList ?_
    rw [List.map_map]
    exact (repeatedShards_eq_nil_iff.mp h).2
  have hkeys : c.shardMap.keys = c.shards.map (·.id) := by
    rw [Dict.keys, hentries, List.map_map]
    rfl
  have hranges : c.shardMap.ranges = c.shards.flatMap (·.ranges) := by
    rw [ShardMap.ranges, Dict.values, hentries, List.map_map, List.flatMap_def]
    rfl
  constructor
  · rintro ⟨hunreserved, hvalid, hdisjoint⟩
    rw [hkeys] at hunreserved
    rw [hranges] at hvalid hdisjoint
    exact ⟨fun s hs hid => hunreserved (hid ▸ List.mem_map_of_mem hs),
      fun s hs r hr => hvalid r (List.mem_flatMap.mpr ⟨s, hs, hr⟩), hdisjoint⟩
  · rintro ⟨hunreserved, hvalid, hdisjoint⟩
    refine ⟨?_, ?_, by rwa [hranges]⟩
    · rw [hkeys]
      rintro hid
      obtain ⟨s, hs, hs'⟩ := List.mem_map.mp hid
      exact hunreserved s hs hs'
    · rw [hranges]
      intro r hr
      obtain ⟨s, hs, hr⟩ := List.mem_flatMap.mp hr
      exact hvalid s hs r hr

/-! ## Building -/

namespace ServerPlan

variable {C P : Type} [Packet P]

/-- The plan with a provision for contexts. -/
def withContexts (plan : ServerPlan C P) (makeContext : Nat → C) : ServerPlan C P :=
  { plan with makeContext := some makeContext }

omit [Packet P] in
/-- A plan with all that is needed becomes a server exactly if nothing is wrong with the settings and
    a table is built from the shards. The server has this table. -/
theorem build_eq_ok (plan : ServerPlan C P) {codec : Codec P} {makeContext : Nat → C}
    (hcodec : plan.codec = some codec) (hmake : plan.makeContext = some makeContext)
    (table : ShardTable) :
    (∃ server, plan.build = .ok server ∧ server.registry.table = table) ↔
      plan.config.complaints = [] ∧ ShardTable.build plan.shards = .ok table := by
  rw [build, hcodec, hmake]
  cases hcomplaints : plan.config.complaints with
  | cons complaint complaints => simp
  | nil =>
    simp only [Directory.configure, ShardRegistry.configure]
    cases hbuild : ShardTable.build plan.shards with
    | error e => simp
    | ok built => simp

omit [Packet P] in
/-- A server that is built from a configuration owns keys by the last entry that the configuration has
    for each shard: a key in a range of such an entry belongs to its shard, and any other key to nobody,
    even if an earlier entry for the same shard has it. Such a server is built exactly if nothing is
    wrong with its settings, and of the shards with their last entries none is reserved, no range is
    empty and no two share a key. If no shard is listed twice, the last entries are all entries. -/
theorem owned_as_listed_last [Compressors] (config : MeshConfig) (registry : PacketRegistry P)
    (makeContext : Nat → C) :
    let plan := (ofConfig config registry).withContexts makeContext
    ((∃ server, plan.build = .ok server) ↔
      config.server.complaints = [] ∧ config.shardMap.Good) ∧
    (∀ server, plan.build = .ok server → ∀ key,
      (∀ s, config.ListsLast s → (∃ r ∈ s.ranges, r.contains key = true) →
        server.registry.table.ownerOf key = s.id) ∧
      ((∀ s, config.ListsLast s → ¬∃ r ∈ s.ranges, r.contains key = true) →
        server.registry.table.ownerOf key = unassignedShard)) ∧
    (repeatedShards [] config.shards = [] →
      (∀ s, config.ListsLast s ↔ s ∈ config.shards) ∧
      (config.shardMap.Good ↔ config.Honourable)) := by
  intro plan
  have hbuild (table : ShardTable) :
      (∃ server, plan.build = .ok server ∧ server.registry.table = table) ↔
        config.server.complaints = [] ∧ ShardTable.build config.shardMap = .ok table :=
    build_eq_ok plan rfl rfl table
  have hgood (table : ShardTable) := ShardTable.build_eq_ok_iff (t := table)
    config.shardMap.ascending_perm
  refine ⟨⟨?_, ?_⟩, fun server hserver key => ?_, fun honce => ?_⟩
  · rintro ⟨server, hserver⟩
    obtain ⟨hsettings, htable⟩ := (hbuild _).mp ⟨server, hserver, rfl⟩
    exact ⟨hsettings, ((hgood _).mp htable).1⟩
  · rintro ⟨hsettings, hshards⟩
    obtain ⟨server, hserver, -⟩ := (hbuild _).mpr ⟨hsettings, (hgood _).mpr ⟨hshards, rfl⟩⟩
    exact ⟨server, hserver⟩
  · have htable := ((hbuild _).mp ⟨server, hserver, rfl⟩).2
    refine ⟨fun s hlast howns => ?_, fun hnobody => ?_⟩
    · exact ShardTable.ownerOf_of_owns config.shardMap.ascending_perm htable
        (MeshConfig.owns_iff.mpr ⟨s, hlast, rfl, howns⟩)
    · refine ShardTable.ownerOf_of_unowned config.shardMap.ascending_perm htable fun id howns => ?_
      obtain ⟨s, hlast, -, hkey⟩ := MeshConfig.owns_iff.mp howns
      exact hnobody s hlast hkey
  · exact ⟨fun s => MeshConfig.listsLast_iff honce, MeshConfig.shardMap_good_iff honce⟩

/-- A configuration that lists a shard twice, with different ranges. -/
def listedTwice : MeshConfig :=
  { shards := [⟨0, [⟨0, 999⟩]⟩, ⟨1, [⟨1000, 1999⟩]⟩, ⟨0, [⟨2000, 2999⟩]⟩] }

/-- The check of the configuration reports the shard, but a server is built, and a key that is listed
    belongs to nobody. -/
theorem built_though_listed_twice :
    "Shard 0 is listed more than once" ∈ listedTwice.shardComplaints ∧
    ∃ server : Server Unit Ping,
      ((ofConfig listedTwice ⟨[⟨0⟩]⟩).withContexts fun _ => ()).build = .ok server ∧
      ∃ s ∈ listedTwice.shards, ∃ r ∈ s.ranges, ∃ key, r.contains key = true ∧
        server.registry.table.ownerOf key = unassignedShard ∧
        server.registry.table.ownerOf key ≠ s.id := by
  have hgood : listedTwice.shardMap.Good := by
    refine ⟨by decide, by decide, ?_⟩
    show List.Pairwise KeyRange.Disjoint [⟨2000, 2999⟩, ⟨1000, 1999⟩]
    have hapart : KeyRange.Disjoint ⟨1000, 1999⟩ ⟨2000, 2999⟩ :=
      (KeyRange.disjoint_iff_of_first_le (by decide) (by decide)).mpr (by decide)
    simp [hapart.symm]
  have hunowned : ∀ id, ¬listedTwice.shardMap.Owns id 5 := by
    rintro id ⟨ranges, hget, r, hr, hkey⟩
    have hnone : ∀ e ∈ listedTwice.shardMap.entries, ∀ r ∈ e.2, ¬r.contains 5 := by decide
    exact hnone _ (Dict.mem_entries.mpr hget) r hr hkey
  have htable := (ShardTable.build_eq_ok_iff listedTwice.shardMap.ascending_perm).mpr ⟨hgood, rfl⟩
  have hnobody := ShardTable.ownerOf_of_unowned listedTwice.shardMap.ascending_perm htable hunowned
  obtain ⟨server, hserver, hregistry⟩ := (build_eq_ok
    ((ofConfig listedTwice (⟨[⟨0⟩]⟩ : PacketRegistry Ping)).withContexts fun _ => ()) rfl rfl _).mpr ⟨by decide, htable⟩
  rw [← hregistry] at hnobody
  refine ⟨List.mem_append_left _ (by decide), server, hserver, ⟨0, [⟨0, 999⟩]⟩, by decide,
    ⟨0, 999⟩, by decide, 5, by decide, hnobody, ?_⟩
  rw [hnobody]
  decide

end ServerPlan
end ShardMesh
