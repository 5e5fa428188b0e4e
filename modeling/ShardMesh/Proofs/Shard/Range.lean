import ShardMesh.Shard.Range

/-!
# Ranges that share no key

Looking at neighbours is enough: once ranges with at least one key each are sorted by their first
keys, each of them ends before the next one begins if no two neighbours overlap, and then it ends
before all that follow begin. So a clash is found exactly if two of the ranges share a key, whatever
their order was before.
-/

namespace ShardMesh

namespace KeyRange

/-- No key lies in both ranges. -/
def Disjoint (a b : KeyRange) : Prop := ∀ key, ¬(a.contains key ∧ b.contains key)

theorem contains_iff {r : KeyRange} {key : UInt64} :
    r.contains key ↔ r.first ≤ key ∧ key ≤ r.last := by
  simp [contains]

theorem isValid_iff {r : KeyRange} : r.isValid ↔ r.first ≤ r.last := by
  simp [isValid]

theorem Disjoint.symm {a b : KeyRange} (h : a.Disjoint b) : b.Disjoint a :=
  fun key hkey => h key hkey.symm

/-- A range overlaps one that begins no earlier exactly if it does not end before. -/
theorem overlaps_iff_of_first_le {a b : KeyRange} (hfirst : a.first ≤ b.first) (hb : b.isValid) :
    a.overlaps b ↔ ¬a.last < b.first := by
  have hle : a.first ≤ b.last := UInt64.le_trans hfirst (isValid_iff.mp hb)
  simp [overlaps, hle]

/-- The first key of the later range decides whether a key is shared. -/
theorem disjoint_iff_of_first_le {a b : KeyRange} (hfirst : a.first ≤ b.first) (hb : b.isValid) :
    a.Disjoint b ↔ a.last < b.first := by
  constructor
  · intro h
    have hshared := h b.first
    rw [contains_iff, contains_iff] at hshared
    refine UInt64.not_le.mp fun hle => hshared ⟨⟨hfirst, hle⟩, UInt64.le_refl _, ?_⟩
    exact isValid_iff.mp hb
  · intro h key hkey
    rw [contains_iff, contains_iff] at hkey
    obtain ⟨⟨-, hlast⟩, hbegin, -⟩ := hkey
    exact UInt64.not_le.mpr h (UInt64.le_trans hbegin hlast)

end KeyRange

variable {κ : Type} {owned rows : List (KeyRange × κ)}

/-- All ranges end before those that follow begin. -/
def Separated (rows : List (KeyRange × κ)) : Prop :=
  rows.Pairwise fun a b => a.1.last < b.1.first

theorem sortByFirst_perm (owned : List (KeyRange × κ)) : (sortByFirst owned).Perm owned :=
  List.mergeSort_perm owned _

theorem sortByFirst_pairwise (owned : List (KeyRange × κ)) :
    (sortByFirst owned).Pairwise fun a b => a.1.first ≤ b.1.first := by
  have hsorted : (sortByFirst owned).Pairwise fun a b => decide (a.1.first ≤ b.1.first) := by
    refine List.pairwise_mergeSort (fun a b c hab hbc => ?_) (fun a b => ?_) owned
    · rw [decide_eq_true_eq] at hab hbc ⊢
      exact UInt64.le_trans hab hbc
    · rw [Bool.or_eq_true, decide_eq_true_eq, decide_eq_true_eq]
      exact UInt64.le_total a.1.first b.1.first
  exact hsorted.imp decide_eq_true_eq.mp

/-- Neighbours decide about all. -/
theorem clashOfNeighbours?_eq_none_iff
    (hsorted : rows.Pairwise fun a b => a.1.first ≤ b.1.first)
    (hvalid : ∀ row ∈ rows, row.1.isValid) : clashOfNeighbours? rows = none ↔ Separated rows := by
  induction rows with
  | nil => simp [clashOfNeighbours?, Separated]
  | cons a tail ih =>
    cases tail with
    | nil => simp [clashOfNeighbours?, Separated]
    | cons b rest =>
      obtain ⟨hfirst, hsorted⟩ := List.pairwise_cons.mp hsorted
      have hrest := ih hsorted fun row hrow => hvalid row (List.mem_cons_of_mem a hrow)
      have hb : b.1.isValid := hvalid b (by simp)
      have hneighbour := KeyRange.overlaps_iff_of_first_le (hfirst b List.mem_cons_self) hb
      rw [clashOfNeighbours?, Separated, List.pairwise_cons]
      by_cases hoverlap : a.1.overlaps b.1
      · rw [if_pos hoverlap]
        have hnot := hneighbour.mp hoverlap
        exact ⟨nofun, fun h => absurd (h.1 b List.mem_cons_self) hnot⟩
      · rw [if_neg hoverlap, hrest]
        have hend : a.1.last < b.1.first :=
          Decidable.not_not.mp fun hnot => hoverlap (hneighbour.mpr hnot)
        refine ⟨fun h => ⟨fun c hc => ?_, h⟩, And.right⟩
        -- `c` is the neighbour, or begins no earlier than it
        rcases List.mem_cons.mp hc with rfl | hc
        · exact hend
        · exact UInt64.lt_of_lt_of_le hend ((List.pairwise_cons.mp hsorted).1 c hc)

/-- Of sorted ranges, none shares a key with another exactly if each ends before the next begins. -/
theorem pairwise_disjoint_iff (hsorted : rows.Pairwise fun a b => a.1.first ≤ b.1.first)
    (hvalid : ∀ row ∈ rows, row.1.isValid) :
    (rows.Pairwise fun a b => a.1.Disjoint b.1) ↔ Separated rows := by
  constructor
  · intro h
    refine (hsorted.and h).imp_of_mem fun _ hb hab => ?_
    exact (KeyRange.disjoint_iff_of_first_le hab.1 (hvalid _ hb)).mp hab.2
  · intro h
    refine (hsorted.and h).imp_of_mem fun _ hb hab => ?_
    exact (KeyRange.disjoint_iff_of_first_le hab.1 (hvalid _ hb)).mpr hab.2

theorem isValid_sortByFirst (hvalid : ∀ row ∈ owned, row.1.isValid) :
    ∀ row ∈ sortByFirst owned, row.1.isValid :=
  fun row hrow => hvalid row ((sortByFirst_perm owned).mem_iff.mp hrow)

/-- No clash is found among ranges exactly if they are separated once they are sorted. -/
theorem findClash?_eq_none_iff_separated (hvalid : ∀ row ∈ owned, row.1.isValid) :
    findClash? owned = none ↔ Separated (sortByFirst owned) :=
  clashOfNeighbours?_eq_none_iff (sortByFirst_pairwise owned) (isValid_sortByFirst hvalid)

/-- No clash is found among ranges exactly if no two of them share a key. -/
theorem findClash?_eq_none_iff (hvalid : ∀ row ∈ owned, row.1.isValid) :
    findClash? owned = none ↔ owned.Pairwise fun a b => a.1.Disjoint b.1 := by
  rw [findClash?_eq_none_iff_separated hvalid, ← pairwise_disjoint_iff (sortByFirst_pairwise owned)
    (isValid_sortByFirst hvalid)]
  exact (sortByFirst_perm owned).pairwise_iff KeyRange.Disjoint.symm

end ShardMesh
