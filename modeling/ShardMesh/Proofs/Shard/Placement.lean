import ShardMesh.Proofs.Shard.Registry
import ShardMesh.Proofs.Shard.Table
import ShardMesh.Server

/-!
# Owners are known shards

The ownership table is replaced as a whole, and sets of members are only ever added. So whatever the
tables were before, every shard that the present one names has a set (`Housed`), and a connection can be
moved to the owner of any key. Only a connection that is not registered cannot.
-/

namespace ShardMesh

/-- The owner of a key is a shard of the table or the unassigned shard. -/
theorem ShardTable.ownerOf_cases (t : ShardTable) (key : UInt64) :
    t.ownerOf key = unassignedShard ∨ ∃ row ∈ t.rows, row.2 = t.ownerOf key := by
  unfold ownerOf
  cases hlast : (t.rows.takeWhile fun row => decide (row.1.first ≤ key)).getLast? with
  | none => exact .inl rfl
  | some row =>
    have hrow : row ∈ t.rows := (List.takeWhile_sublist _).subset (List.mem_of_getLast? hlast)
    by_cases hkey : row.1.contains key = true
    · exact .inr ⟨row, hrow, (if_pos hkey).symm⟩
    · exact .inl (if_neg hkey)

namespace ShardRegistry

variable {α : Type}

/-! ## The table -/

@[simp] theorem table_insertInto (r : ShardRegistry α) (shard : ShardId) (id : ConnectionId)
    (member : α) : (r.insertInto shard id member).table = r.table := rfl

@[simp] theorem table_takeUnlessPlaced (r : ShardRegistry α) (shard : ShardId) (id : ConnectionId) :
    (r.takeUnlessPlaced shard id).table = r.table := by
  unfold takeUnlessPlaced
  split <;> rfl

@[simp] theorem table_restoreIfPlaced (r : ShardRegistry α) (shard : ShardId) (id : ConnectionId)
    (member : α) : (r.restoreIfPlaced shard id member).table = r.table := by
  unfold restoreIfPlaced
  split <;> rfl

theorem table_add (r : ShardRegistry α) (id : ConnectionId) (member : α) (shard : ShardId) :
    (r.add id member shard).2.table = r.table := by
  unfold add
  split
  · rfl
  · dsimp only
    split
    · dsimp only
      split <;> rfl
    · rfl

theorem table_move (r : ShardRegistry α) (id : ConnectionId) (target : ShardId) :
    (r.move id target).2.table = r.table := by
  unfold move
  split
  · rfl
  · split
    · rfl
    · split
      · rfl
      · rfl
      · unfold swapPlacement
        split
        · rename_i hswap
          split at hswap <;> cases hswap
          simp
        · rename_i hswap
          split at hswap <;> cases hswap
          simp

/-- No call but an accepted ownership map replaces the table. -/
theorem table_call (r : ShardRegistry α) (c : Call α) :
    (r.call c).2.table = r.table ∨
      ∃ map table, c = .configure map ∧ ShardTable.build map = .ok table ∧
        (r.call c).2.table = table := by
  cases c with
  | configure map =>
    simp only [call, configure]
    cases hbuild : ShardTable.build map with
    | error e => exact .inl rfl
    | ok table => exact .inr ⟨map, table, rfl, hbuild, rfl⟩
  | add id member shard => exact .inl (r.table_add id member shard)
  | move id target => exact .inl (r.table_move id target)
  | remove id =>
    refine .inl ?_
    simp only [call, remove]
    split <;> rfl

/-! ## Known shards -/

/-- A shard that is known stays known. -/
theorem Refines.isSome_call {r : ShardRegistry α} {m : Assignment α} (h : Refines r m) (c : Call α)
    {shard : ShardId} (hshard : (r.shards.get? shard).isSome) :
    ((r.call c).2.shards.get? shard).isSome := by
  rw [(h.call c).2.known]
  rw [h.known] at hshard
  cases c with
  | configure map =>
    simp only [Assignment.call]
    split
    · exact List.mem_append_left _ hshard
    · exact hshard
  | add id member target =>
    simp only [Assignment.call]
    split <;> exact hshard
  | move id target =>
    simp only [Assignment.call]
    split
    · exact hshard
    · split
      · exact hshard
      · split <;> exact hshard
  | remove id => exact hshard

/-- The unassigned shard and every shard that the table names have a set. -/
structure Housed (r : ShardRegistry α) : Prop where
  unassigned : (r.shards.get? unassignedShard).isSome
  rows : ∀ row ∈ r.table.rows, (r.shards.get? row.2).isSome

theorem housed_empty : Housed (empty : ShardRegistry α) :=
  ⟨(refines_initial.known unassignedShard).mpr List.mem_cons_self, nofun⟩

theorem Housed.ownerOf {r : ShardRegistry α} (h : r.Housed) (key : UInt64) :
    (r.shards.get? (r.table.ownerOf key)).isSome := by
  rcases r.table.ownerOf_cases key with howner | ⟨row, hrow, howner⟩
  · rw [howner]
    exact h.unassigned
  · rw [← howner]
    exact h.rows row hrow

/-- An accepted map makes its shards known together with the table. -/
theorem Housed.call {r : ShardRegistry α} {m : Assignment α} (href : Refines r m) (h : r.Housed)
    (c : Call α) : (r.call c).2.Housed := by
  refine ⟨href.isSome_call c h.unassigned, fun row hrow => ?_⟩
  rcases r.table_call c with htable | ⟨map, table, rfl, hbuild, htable⟩
  · rw [htable] at hrow
    exact href.isSome_call c (h.rows row hrow)
  · rw [htable] at hrow
    obtain ⟨-, -, hrows⟩ := ShardTable.rows_of_build map.ascending_perm hbuild
    obtain ⟨ranges, hget, -⟩ := (hrows row).mp hrow
    have hkey : row.2 ∈ map.keys := Dict.mem_keys.mpr (by rw [hget]; rfl)
    rw [(href.call (.configure map)).2.known]
    simp only [Assignment.call, hbuild, List.mem_append]
    exact .inr (.inl hkey)

theorem Housed.runCalls {r : ShardRegistry α} {m : Assignment α} (href : Refines r m)
    (h : r.Housed) (calls : List (Call α)) :
    (ShardMesh.runCalls ShardRegistry.call r calls).2.Housed := by
  induction calls generalizing r m with
  | nil => exact h
  | cons c calls ih => exact ih (href.call c).2 (h.call href c)

/-- Moving a connection to a known shard fails exactly if it is not registered. Afterwards the index
    names this shard for it, and for others what it named before; every member stays what it is. -/
theorem Refines.move_of_known {r : ShardRegistry α} {m : Assignment α} (h : Refines r m)
    (id : ConnectionId) {target : ShardId} (hknown : (r.shards.get? target).isSome) :
    (r.shardOf id = none ∧ r.move id target = (.error (.notFound id), r)) ∨
      ∃ source changed after, r.shardOf id = some source ∧ r.move id target = (.ok changed, after) ∧
        (∀ x, after.shardOf x = if id = x then some target else r.shardOf x) ∧
        ∀ x, after.member? x = r.member? x := by
  obtain ⟨hanswer, hafter⟩ := h.call (.move id target)
  simp only [ShardRegistry.call, Assignment.call] at hanswer hafter
  cases hget : m.placed.get? id with
  | none =>
    have hindex : r.placement.get? id = none := by rw [h.index, hget]; rfl
    exact .inl ⟨hindex, by simp only [move, hindex]⟩
  | some entry =>
    obtain ⟨source, member⟩ := entry
    have hindex : r.placement.get? id = some source := by rw [h.index, hget]; rfl
    have hmember := (h.member source id member).mpr hget
    rw [hget] at hanswer hafter
    dsimp only at hanswer hafter
    by_cases hsame : source = target
    · refine .inr ⟨source, false, r, hindex, by simp only [move, hindex, if_pos hsame], fun x => ?_,
        fun x => rfl⟩
      split
      · rename_i hx
        rw [← hx, shardOf, hindex, hsame]
      · rfl
    · rw [if_neg hsame, if_pos ((h.known target).mp hknown)] at hafter
      have hmove := move_eq hindex hsame hknown hmember
      rw [hmove] at hafter
      refine .inr ⟨source, true, _, hindex, hmove, fun x => ?_, fun x => ?_⟩
      · exact Dict.get?_set ..
      · rw [hafter.member?, h.member?, Dict.get?_set]
        split
        · rename_i hx
          rw [← hx, hget]
          rfl
        · rfl

end ShardRegistry

/-! ## Moving to the owner -/

namespace Directory

variable {C P : Type} (d : Directory C P)

@[simp] theorem registry_countMove (changed : Bool) : (d.countMove changed).registry = d.registry := by
  cases changed <;> rfl

@[simp] theorem roster_countMove (changed : Bool) : (d.countMove changed).roster = d.roster := by
  cases changed <;> rfl

/-- A move in a directory is one in its registry. -/
theorem move_spec (id : ConnectionId) (shard : ShardId) :
    (d.move id shard).2.registry = (d.registry.move id shard).2 ∧
      (d.move id shard).2.roster = d.roster := by
  unfold move
  split <;> rename_i h <;> simp [h]

theorem assign_spec (id : ConnectionId) (key : UInt64) :
    (d.assign id key).2.registry = (d.registry.moveToOwner id key).2 ∧
      (d.assign id key).2.roster = d.roster := by
  unfold assign
  split <;> rename_i h <;> simp [h]

end Directory

namespace Server

variable {C P : Type} [Packet P]

omit [Packet P] in
/-- After whatever calls on the registry of a server, the owner of a key is a known shard. A connection
    is moved to it unless it is not registered, which is the only failure and changes nothing. The answer
    is the owner; the connection is in the set that the index now names for it, and no other connection
    is in another shard than before. An ownership map that is refused changes nothing. -/
theorem assigned_to_known_owner (server : Server C P) (calls : List (ShardRegistry.Call Seat))
    (id : ConnectionId) (key : UInt64) :
    let s := { server with registry := (runCalls ShardRegistry.call .empty calls).2 }
    let owner := s.registry.table.ownerOf key
    let (result, after) := s.assignToOwner id key
    owner ∈ s.registry.shardIds ∧
    (∀ e, result = .error e ↔ e = .notFound id ∧ s.registry.shardOf id = none) ∧
    (∀ e, result = .error e → after = s) ∧
    (∀ shard, result = .ok shard → shard = owner ∧ after.registry.shardOf id = some shard ∧
      (after.registry.memberIn shard id).isSome ∧
      (∀ other, other ≠ id → after.registry.shardOf other = s.registry.shardOf other) ∧
      ∀ other, after.registry.member? other = s.registry.member? other) ∧
    ∀ map e, (s.registry.configure map).1 = .error e → (s.registry.configure map).2 = s.registry := by
  intro s owner
  obtain ⟨m, href⟩ : ∃ m, ShardRegistry.Refines s.registry m :=
    ⟨_, (ShardRegistry.refines_initial.runCalls calls).2⟩
  have hknown := (ShardRegistry.housed_empty.runCalls ShardRegistry.refines_initial calls).ownerOf key
  have hrefused (map : ShardMap) (e : ProtocolError)
      (h : (s.registry.configure map).1 = .error e) : (s.registry.configure map).2 = s.registry := by
    refine href.unchanged_of_refused (c := .configure map) (e := e) ?_
    simp only [ShardRegistry.call, ShardRegistry.Answer.ofResult]
    rw [h]
  have howner : owner ∈ s.registry.shardIds :=
    (List.mergeSort_perm _ _).mem_iff.mpr (Dict.mem_keys.mpr hknown)
  have hassign : s.assignToOwner id key =
      ((s.toDirectory.assign id key).1, { s with toDirectory := (s.toDirectory.assign id key).2 }) := rfl
  rcases href.move_of_known id hknown with ⟨hnone, hmove⟩ |
    ⟨source, changed, after, hsource, hmove, hshard, hmember⟩
  · have hfailed : s.assignToOwner id key = (.error (.notFound id), s) := by
      have howned : s.registry.moveToOwner id key = (.error (.notFound id), s.registry) := by
        unfold ShardRegistry.moveToOwner
        dsimp only
        rw [hmove]
      rw [hassign, Directory.assign, howned]
    rw [hfailed]
    refine ⟨howner, fun e => ⟨fun h => ⟨(Except.error.inj h).symm, hnone⟩, ?_⟩, fun e _ => rfl,
      fun shard h => ?_, hrefused⟩
    · rintro ⟨rfl, -⟩
      rfl
    · cases h
  · have hplaced := hshard id
    rw [if_pos rfl] at hplaced
    have howned : s.registry.moveToOwner id key = (.ok (owner, changed), after) := by
      unfold ShardRegistry.moveToOwner
      dsimp only
      rw [hmove]
    have hdone : s.assignToOwner id key = (.ok owner,
        { s with toDirectory := { s.toDirectory with registry := after }.countMove changed }) := by
      rw [hassign, Directory.assign, howned]
    rw [hdone]
    refine ⟨howner, fun e => ⟨fun h => ?_, ?_⟩, fun e h => ?_, fun shard h => ?_, hrefused⟩
    · cases h
    · rintro ⟨-, hnone⟩
      rw [hsource] at hnone
      cases hnone
    · cases h
    · obtain rfl := Except.ok.inj h
      dsimp only
      rw [Directory.registry_countMove]
      have hin := hmember id
      rw [ShardRegistry.member?, hplaced, Option.bind_some, href.member?] at hin
      have hregistered : (m.placed.get? id).isSome := by
        have hindex := href.index id
        rw [show s.registry.placement.get? id = some source from hsource] at hindex
        obtain ⟨entry, hentry, -⟩ := Option.map_eq_some_iff.mp hindex.symm
        rw [hentry]
        rfl
      refine ⟨rfl, hplaced, ?_, fun other hother => ?_, hmember⟩
      · rw [hin, Option.isSome_map]
        exact hregistered
      · rw [hshard, if_neg (Ne.symm hother)]

end Server
end ShardMesh
