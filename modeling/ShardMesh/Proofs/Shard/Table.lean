import ShardMesh.Proofs.Dict
import ShardMesh.Proofs.Shard.Range
import ShardMesh.Shard.Table

/-!
# Who owns a key

A table is built from a map exactly if the map is good: it leaves the reserved shard alone, and of
its ranges none is empty and no two share a key. The table then knows the owner of every key: the
shard that has a range with the key, and the unassigned shard if there is none. In which order the
shards of the map are taken makes no difference to either.
-/

namespace ShardMesh

namespace ShardMap

variable {m : ShardMap} {order : List (ShardId × List KeyRange)}

/-- All ranges of a map, each as often as it is listed. -/
def ranges (m : ShardMap) : List KeyRange := m.values.flatten

/-- What is asked of a map. -/
structure Good (m : ShardMap) : Prop where
  unreserved : unassignedShard ∉ m.keys
  valid : ∀ r ∈ m.ranges, r.first ≤ r.last
  disjoint : m.ranges.Pairwise KeyRange.Disjoint

/-- A shard has a range that contains the key. -/
def Owns (m : ShardMap) (id : ShardId) (key : UInt64) : Prop :=
  ∃ ranges, m.get? id = some ranges ∧ ∃ r ∈ ranges, r.contains key

/-! ## The ranges in some order -/

theorem ascending_perm (m : ShardMap) : m.ascending.Perm m.entries :=
  List.mergeSort_perm m.entries _

theorem mem_ranges {r : KeyRange} : r ∈ m.ranges ↔ ∃ e ∈ m.entries, r ∈ e.2 := by
  unfold ranges Dict.values
  rw [← List.flatMap_def, List.mem_flatMap]

theorem mem_owned (horder : order.Perm m.entries) {row : KeyRange × ShardId} :
    row ∈ m.owned order ↔ ∃ ranges, m.get? row.2 = some ranges ∧ row.1 ∈ ranges := by
  obtain ⟨r, id⟩ := row
  unfold owned
  rw [List.mem_flatMap]
  constructor
  · rintro ⟨⟨owner, ranges⟩, he, hrow⟩
    obtain ⟨r', hr, heq⟩ := List.mem_map.mp hrow
    cases heq
    exact ⟨ranges, Dict.mem_entries.mp (horder.mem_iff.mp he), hr⟩
  · rintro ⟨ranges, hget, hr⟩
    have he : (id, ranges) ∈ order := horder.mem_iff.mpr (Dict.mem_entries.mpr hget)
    exact ⟨(id, ranges), he, List.mem_map_of_mem hr⟩

/-- Whatever the order, the owned ranges are the ranges of the map. -/
theorem owned_perm (horder : order.Perm m.entries) :
    ((m.owned order).map Prod.fst).Perm m.ranges := by
  have heq : (m.owned order).map Prod.fst = (order.map Prod.snd).flatten := by
    unfold owned
    rw [List.map_flatMap, ← List.flatMap_def]
    refine congrArg (order.flatMap ·) (funext fun e => ?_)
    rw [List.map_map]
    exact List.map_id' e.2
  rw [heq]
  exact (horder.map Prod.snd).flatten

theorem valid_owned (horder : order.Perm m.entries) :
    (∀ row ∈ m.owned order, row.1.isValid) ↔ ∀ r ∈ m.ranges, r.first ≤ r.last := by
  have hmem (r : KeyRange) : r ∈ m.ranges ↔ ∃ row ∈ m.owned order, row.1 = r := by
    rw [← (owned_perm horder).mem_iff, List.mem_map]
  constructor
  · intro h r hr
    obtain ⟨row, hrow, rfl⟩ := (hmem r).mp hr
    exact KeyRange.isValid_iff.mp (h row hrow)
  · intro h row hrow
    exact KeyRange.isValid_iff.mpr (h row.1 ((hmem row.1).mpr ⟨row, hrow, rfl⟩))

/-! ## Complaints -/

theorem complaintsAbout_eq_nil_iff {id : ShardId} {ranges : List KeyRange} :
    complaintsAbout id ranges = [] ↔ id ≠ unassignedShard ∧ ∀ r ∈ ranges, r.first ≤ r.last := by
  unfold complaintsAbout
  rw [List.append_eq_nil_iff, List.filterMap_eq_nil_iff]
  refine and_congr ?_ (forall₂_congr fun r _ => ?_)
  · by_cases hid : id = unassignedShard <;> simp [hid]
  · rw [← KeyRange.isValid_iff]
    by_cases hr : r.isValid <;> simp [hr]

theorem no_shard_complained_about_iff :
    m.ascending.flatMap (fun (id, ranges) => complaintsAbout id ranges) = [] ↔
      unassignedShard ∉ m.keys ∧ ∀ r ∈ m.ranges, r.first ≤ r.last := by
  rw [List.flatMap_eq_nil_iff]
  constructor
  · intro h
    have hshard (e : ShardId × List KeyRange) (he : e ∈ m.entries) :=
      complaintsAbout_eq_nil_iff.mp (h e ((ascending_perm m).mem_iff.mpr he))
    constructor
    · intro hkey
      obtain ⟨e, he, hid⟩ := List.mem_map.mp hkey
      exact (hshard e he).1 hid
    · intro r hr
      obtain ⟨e, he, hr⟩ := mem_ranges.mp hr
      exact (hshard e he).2 r hr
  · rintro ⟨hunreserved, hvalid⟩ e he
    have he := (ascending_perm m).mem_iff.mp he
    refine complaintsAbout_eq_nil_iff.mpr ⟨fun hid => ?_, fun r hr => ?_⟩
    · exact hunreserved (List.mem_map.mpr ⟨e, he, hid⟩)
    · exact hvalid r (mem_ranges.mpr ⟨e, he, hr⟩)

/-- There is nothing wrong with a map exactly if it is good. -/
theorem complaints_eq_nil_iff (horder : order.Perm m.entries) :
    m.complaints order = [] ↔ m.Good := by
  have hclash : (∀ r ∈ m.ranges, r.first ≤ r.last) →
      (findClash? (m.owned order) = none ↔ m.ranges.Pairwise KeyRange.Disjoint) := by
    intro hvalid
    rw [findClash?_eq_none_iff ((valid_owned horder).mpr hvalid),
      ← (owned_perm horder).pairwise_iff KeyRange.Disjoint.symm, List.pairwise_map]
  unfold complaints
  rw [List.append_eq_nil_iff, no_shard_complained_about_iff]
  constructor
  · rintro ⟨⟨hunreserved, hvalid⟩, hnone⟩
    refine ⟨hunreserved, hvalid, (hclash hvalid).mp ?_⟩
    cases hfound : findClash? (m.owned order) with
    | none => rfl
    | some c =>
      rw [hfound] at hnone
      cases hnone
  · intro h
    refine ⟨⟨h.unreserved, h.valid⟩, ?_⟩
    rw [(hclash h.valid).mpr h.disjoint]

end ShardMap

/-! ## The table -/

namespace ShardTable

variable {t : ShardTable}

theorem build_eq_ok_iff {m : ShardMap} {order : List (ShardId × List KeyRange)}
    (horder : order.Perm m.entries) :
    build m order = .ok t ↔ m.Good ∧ t = ⟨sortByFirst (m.owned order)⟩ := by
  rw [← ShardMap.complaints_eq_nil_iff horder]
  unfold build
  cases m.complaints order with
  | nil =>
    constructor
    · intro h
      cases h
      exact ⟨rfl, rfl⟩
    · rintro ⟨-, rfl⟩
      rfl
  | cons complaint complaints => exact ⟨nofun, fun h => nomatch h.1⟩

/-- The last range that begins at or before a key is the only one that can contain it. -/
theorem ownerOf_of_contains (hsorted : t.rows.Pairwise fun a b => a.1.first ≤ b.1.first)
    (hseparated : Separated t.rows) {row : KeyRange × ShardId} (hrow : row ∈ t.rows) {key : UInt64}
    (hkey : row.1.contains key) : t.ownerOf key = row.2 := by
  obtain ⟨before, after, hrows⟩ := List.append_of_mem hrow
  obtain ⟨hfirst, hlast⟩ := KeyRange.contains_iff.mp hkey
  rw [hrows] at hsorted
  rw [Separated, hrows] at hseparated
  have hbefore : ∀ other ∈ before, decide (other.1.first ≤ key) = true := by
    intro other hother
    have hle := (List.pairwise_append.mp hsorted).2.2 other hother row List.mem_cons_self
    exact decide_eq_true (UInt64.le_trans hle hfirst)
  have hafter : after.takeWhile (fun other => decide (other.1.first ≤ key)) = [] := by
    cases after with
    | nil => rfl
    | cons next rest =>
      have hrest := (List.pairwise_cons.mp (List.pairwise_append.mp hseparated).2.1).1
      have hlt : key < next.1.first :=
        UInt64.lt_of_le_of_lt hlast (hrest next List.mem_cons_self)
      exact List.takeWhile_cons_of_neg (by simpa using hlt)
  have htaken : t.rows.takeWhile (fun other => decide (other.1.first ≤ key)) = before ++ [row] := by
    rw [hrows, List.takeWhile_append_of_pos hbefore, List.takeWhile_cons_of_pos (by simpa), hafter]
  unfold ownerOf
  rw [htaken, List.getLast?_concat]
  exact if_pos hkey

theorem ownerOf_of_uncontained {key : UInt64} (h : ∀ row ∈ t.rows, ¬row.1.contains key) :
    t.ownerOf key = unassignedShard := by
  unfold ownerOf
  cases hlast : (t.rows.takeWhile fun row => decide (row.1.first ≤ key)).getLast? with
  | none => rfl
  | some row =>
    have hrow : row ∈ t.rows :=
      (List.takeWhile_sublist _).subset (List.mem_of_getLast? hlast)
    exact if_neg (h row hrow)

/-- What is known of a table that was built from a map. -/
theorem rows_of_build {m : ShardMap} {order : List (ShardId × List KeyRange)}
    (horder : order.Perm m.entries) (ht : build m order = .ok t) :
    (t.rows.Pairwise fun a b => a.1.first ≤ b.1.first) ∧ Separated t.rows ∧
      ∀ row, row ∈ t.rows ↔ ∃ ranges, m.get? row.2 = some ranges ∧ row.1 ∈ ranges := by
  obtain ⟨hgood, rfl⟩ := (build_eq_ok_iff horder).mp ht
  have hvalid := (ShardMap.valid_owned horder).mpr hgood.valid
  have hdisjoint := hgood.disjoint
  rw [← (ShardMap.owned_perm horder).pairwise_iff KeyRange.Disjoint.symm, List.pairwise_map,
    ← findClash?_eq_none_iff hvalid, findClash?_eq_none_iff_separated hvalid] at hdisjoint
  refine ⟨sortByFirst_pairwise _, hdisjoint, fun row => ?_⟩
  exact (sortByFirst_perm _).mem_iff.trans (ShardMap.mem_owned horder)

theorem ownerOf_of_owns {m : ShardMap} {order : List (ShardId × List KeyRange)}
    (horder : order.Perm m.entries) (ht : build m order = .ok t) {key : UInt64} {id : ShardId}
    (h : m.Owns id key) : t.ownerOf key = id := by
  obtain ⟨hsorted, hseparated, hrows⟩ := rows_of_build horder ht
  obtain ⟨ranges, hget, r, hr, hkey⟩ := h
  have hrow := (hrows (r, id)).mpr ⟨ranges, hget, hr⟩
  exact ownerOf_of_contains hsorted hseparated hrow hkey

theorem ownerOf_of_unowned {m : ShardMap} {order : List (ShardId × List KeyRange)}
    (horder : order.Perm m.entries) (ht : build m order = .ok t) {key : UInt64}
    (h : ∀ id, ¬m.Owns id key) : t.ownerOf key = unassignedShard := by
  obtain ⟨-, -, hrows⟩ := rows_of_build horder ht
  refine ownerOf_of_uncontained fun row hrow hkey => ?_
  obtain ⟨ranges, hget, hr⟩ := (hrows row).mp hrow
  exact h row.2 ⟨ranges, hget, row.1, hr, hkey⟩

/-- In whatever order the shards of a map are taken, a table is built from it exactly if the map is
    good: it does not name the reserved shard, no range is empty and no two ranges share a key. The
    table then names one owner for each key: the shard that has a range with the key, and the
    unassigned shard exactly if no shard has one. -/
theorem built_iff_good_and_ownerOf_iff_owns (m : ShardMap)
    (order : List (ShardId × List KeyRange)) (horder : order.Perm m.entries) :
    ((∃ t, build m order = .ok t) ↔ m.Good) ∧
    ∀ t, build m order = .ok t → ∀ (key : UInt64) (id : ShardId),
      t.ownerOf key = id ↔
        m.Owns id key ∨ id = unassignedShard ∧ ∀ other, ¬m.Owns other key := by
  refine ⟨⟨fun ⟨t, ht⟩ => ((build_eq_ok_iff horder).mp ht).1, fun hgood => ?_⟩, ?_⟩
  · exact ⟨_, (build_eq_ok_iff horder).mpr ⟨hgood, rfl⟩⟩
  · intro t ht key id
    constructor
    · rintro rfl
      by_cases howned : ∃ other, m.Owns other key
      · obtain ⟨other, howns⟩ := howned
        rw [ownerOf_of_owns horder ht howns]
        exact .inl howns
      · have hnobody : ∀ other, ¬m.Owns other key := fun other howns => howned ⟨other, howns⟩
        exact .inr ⟨ownerOf_of_unowned horder ht hnobody, hnobody⟩
    · rintro (howns | ⟨rfl, hnobody⟩)
      · exact ownerOf_of_owns horder ht howns
      · exact ownerOf_of_unowned horder ht hnobody

/-- Two shards, one of which owns the first and the last key that there are; nobody owns what lies
    between. -/
theorem built_for_first_and_last_key :
    let m : ShardMap := Dict.ofList [(7, [⟨10, 19⟩]), (3, [⟨20, 18446744073709551615⟩, ⟨0, 4⟩])]
    m.entries.reverse.Perm m.entries ∧ ∃ t, build m m.entries.reverse = .ok t ∧
      t.ownerOf 0 = 3 ∧ t.ownerOf 19 = 7 ∧ t.ownerOf 20 = 3 ∧
      t.ownerOf 18446744073709551615 = 3 ∧ t.ownerOf 5 = unassignedShard := by
  intro m
  have horder : m.entries.reverse.Perm m.entries := List.reverse_perm _
  obtain ⟨hbuilt, howner⟩ := built_iff_good_and_ownerOf_iff_owns m m.entries.reverse horder
  have hgood : m.Good := by
    refine ⟨by decide, by decide, ?_⟩
    show List.Pairwise KeyRange.Disjoint [⟨10, 19⟩, ⟨20, 18446744073709551615⟩, ⟨0, 4⟩]
    simp only [List.pairwise_cons, List.mem_cons, List.not_mem_nil, or_false, forall_eq_or_imp,
      forall_eq, List.Pairwise.nil, and_true, false_imp_iff, implies_true]
    have hcuts (a b : KeyRange) (hb : b.isValid) (h : a.last < b.first) (hle : a.first ≤ b.first) :
        a.Disjoint b := (KeyRange.disjoint_iff_of_first_le hle hb).mpr h
    exact ⟨⟨hcuts _ _ rfl (by decide) (by decide), (hcuts _ _ rfl (by decide) (by decide)).symm⟩,
      (hcuts _ _ rfl (by decide) (by decide)).symm⟩
  obtain ⟨t, ht⟩ := hbuilt.mpr hgood
  refine ⟨horder, t, ht, ?_, ?_, ?_, ?_, ?_⟩
  · exact (howner t ht 0 3).mpr (.inl ⟨_, rfl, ⟨0, 4⟩, by decide, rfl⟩)
  · exact (howner t ht 19 7).mpr (.inl ⟨_, rfl, ⟨10, 19⟩, by decide, rfl⟩)
  · exact (howner t ht 20 3).mpr (.inl ⟨_, rfl, ⟨20, 18446744073709551615⟩, by decide, rfl⟩)
  · refine (howner t ht 18446744073709551615 3).mpr (.inl ?_)
    exact ⟨_, rfl, ⟨20, 18446744073709551615⟩, by decide, rfl⟩
  · refine (howner t ht 5 unassignedShard).mpr (.inr ⟨rfl, ?_⟩)
    rintro other ⟨ranges, hget, r, hr, hkey⟩
    have hnone : ∀ e ∈ m.entries, ∀ r ∈ e.2, ¬r.contains 5 := by decide
    exact hnone _ (Dict.mem_entries.mpr hget) r hr hkey

end ShardTable
end ShardMesh
