import Mathlib.Algebra.Group.Nat.Defs
import ShardMesh.Compression.Stage
import ShardMesh.Proofs.Compression.Narrowing
import ShardMesh.Proofs.Compression.Standard

/-!
# The most that compressed data may stand for

A block announces its length, which is compared with the limit before anything is decoded. Frames are
decoded until one byte more has come than is wanted, and whoever wants less of them gets the same data
or nothing. So whatever compressors made them, either way of looking finds out exactly whether the data
is longer than the limit, and nothing that is longer ever comes out (`restored_up_to_limit`).
-/

namespace ShardMesh.Compression

/-! ## Blocks -/

namespace Lz4

/-- A block is decoded if the announced length of its data is within the limit, and else refused. -/
theorem decompress_eq {bytes data : Bytes} (hheader : bytes.take 4 = Bytes.ofNatLE 4 data.length)
    (hblock : decodeBlock data.length (bytes.drop 4) = some data) (hsize : data.length < 2 ^ 32)
    (limit : Nat) :
    decompress limit bytes = if data.length ≤ limit then some data else Option.none := by
  have hannounced : Bytes.toNatLE (bytes.take 4) = data.length := by
    rw [hheader]
    exact Bytes.toNatLE_ofNatLE hsize
  have hfour := congrArg List.length hheader
  rw [List.length_take, Bytes.length_ofNatLE] at hfour
  rw [decompress, if_neg (by omega), hannounced]
  dsimp only
  by_cases hfits : data.length ≤ limit
  · rw [if_pos hfits, if_neg (Nat.not_lt.mpr hfits), hblock]
  · rw [if_neg hfits, if_pos (Nat.lt_of_not_le hfits)]

/-- A block stands for no more bytes than it announces, and announces no more than the limit. -/
theorem length_le_announced {limit : Nat} {bytes data : Bytes}
    (h : decompress limit bytes = some data) :
    data.length ≤ Bytes.toNatLE (bytes.take 4) ∧ Bytes.toNatLE (bytes.take 4) ≤ limit := by
  unfold decompress at h
  dsimp only at h
  split at h
  · cases h
  · split at h
    · cases h
    · rename_i hannounced
      refine ⟨?_, Nat.le_of_not_lt hannounced⟩
      unfold decodeBlock at h
      split at h
      · rename_i d _
        split at h
        · rename_i hfits
          cases h
          rw [Segmentation.length_expand]
          exact hfits.1
        · cases h
      · cases h

theorem length_le_of_decompress {limit : Nat} {bytes data : Bytes}
    (h : decompress limit bytes = some data) : data.length ≤ limit :=
  Nat.le_trans (length_le_announced h).1 (length_le_announced h).2

end Lz4

/-! ## Frames -/

namespace Zstd

theorem length_le_of_decompress {limit : Nat} {bytes data : Bytes}
    (h : decompress limit bytes = some data) : data.length ≤ limit := by
  unfold decompress at h
  split at h
  · cases h
  · split at h
    · split at h
      · cases h
      · rename_i hfits
        cases h
        exact Nat.le_of_not_lt hfits
    · cases h

end Zstd

/-! ## The stage -/

variable {k : Compressors} {c : Compression} {data packed : Bytes}

/-- What the compressors make of data is undone exactly if the data is within the limit. -/
theorem decompress_compressWith (hc : c ≠ .none) (hsize : data.length < 2 ^ 32)
    (hrestores : k.Restores data) (hpacked : c.compressWith k data = .ok packed) :
    c.decompress packed =
      if data.length ≤ maxUncompressed then .ok data else .error .decompressionFailure := by
  cases c with
  | none => exact absurd rfl hc
  | lz4 =>
    cases hpacked
    have hfound := Lz4.decompress_eq hrestores.lz4_header hrestores.lz4_block hsize maxUncompressed
    by_cases hfits : data.length ≤ maxUncompressed <;>
      simp only [decompress, hfound, hfits, if_true, if_false]
  | zstd =>
    unfold compressWith at hpacked
    dsimp only at hpacked
    split at hpacked
    · rename_i frames hframes
      obtain rfl : frames = packed := Except.ok.inj hpacked
      have hfound := (hrestores.zstd_frames frames hframes).decompress_eq maxUncompressed
      by_cases hfits : data.length ≤ maxUncompressed <;>
        simp only [decompress, hfound, hfits, if_true, if_false]
    · cases hpacked

/-- Every stage of compression is undone for as much data as may be made by decompression. -/
theorem decompress_compressWith_of_le (h : data.length ≤ maxUncompressed)
    (hrestores : k.Restores data) (hpacked : c.compressWith k data = .ok packed) :
    c.decompress packed = .ok data := by
  by_cases hc : c = .none
  · subst hc
    cases hpacked
    rfl
  · have hsize : data.length < 2 ^ 32 := Nat.lt_of_le_of_lt h (by decide)
    exact (decompress_compressWith hc hsize hrestores hpacked).trans (if_pos h)

theorem length_le_of_decompress (hc : c ≠ .none) {bytes : Bytes}
    (h : c.decompress bytes = .ok data) : data.length ≤ maxUncompressed := by
  unfold decompress at h
  dsimp only at h
  split at h
  · rename_i plain hplain
    cases h
    cases c with
    | none => exact absurd rfl hc
    | lz4 => exact Lz4.length_le_of_decompress hplain
    | zstd => exact Zstd.length_le_of_decompress hplain
  · cases h

/-- Whatever compressors a stage has, if what they make reads back, the stage restores what it
    compressed up to the limit, the limit itself and no bytes at all included, and refuses what is
    longer. From whatever it is given, nothing comes that is longer than the limit. -/
theorem restored_up_to_limit (k : Compressors) (c : Compression) (hc : c ≠ .none) :
    (∀ data : Bytes, data.length < 2 ^ 32 → k.Restores data →
      (c = .zstd → (k.zstd data).isSome) →
      ∃ packed, c.compressWith k data = .ok packed ∧
        c.decompress packed =
          if data.length ≤ maxUncompressed then .ok data else .error .decompressionFailure) ∧
      ∀ bytes data : Bytes, c.decompress bytes = .ok data → data.length ≤ maxUncompressed := by
  refine ⟨fun data hsize hrestores hworks => ?_, fun bytes data h => length_le_of_decompress hc h⟩
  have hpacked : ∃ packed, c.compressWith k data = .ok packed := by
    cases c with
    | none => exact absurd rfl hc
    | lz4 => exact ⟨k.lz4 data, rfl⟩
    | zstd =>
      obtain ⟨frames, hframes⟩ := Option.isSome_iff_exists.mp (hworks rfl)
      exact ⟨frames, by rw [compressWith, hframes]⟩
  obtain ⟨packed, hpacked⟩ := hpacked
  exact ⟨packed, hpacked, decompress_compressWith hc hsize hrestores hpacked⟩

/-- One byte decides, for compressors of one's own. -/
theorem restored_at_limit :
    let k := Compressors.standard
    let full : Bytes := List.replicate maxUncompressed 7
    let longer : Bytes := List.replicate (maxUncompressed + 1) 7
    ((Compression.lz4 ≠ .none ∧ Compression.zstd ≠ .none) ∧
        (full.length < 2 ^ 32 ∧ k.Restores full ∧ (k.zstd full).isSome) ∧
        longer.length < 2 ^ 32 ∧ k.Restores longer ∧ (k.zstd longer).isSome) ∧
      (Compression.lz4.decompress (k.lz4 full) = .ok full ∧
        Compression.lz4.decompress (k.lz4 longer) = .error .decompressionFailure) ∧
      (∃ packed, k.zstd full = some packed ∧ Compression.zstd.decompress packed = .ok full) ∧
      (∃ packed, k.zstd longer = some packed ∧
        Compression.zstd.decompress packed = .error .decompressionFailure) ∧
      full.length ≤ maxUncompressed := by
  intro k full longer
  have hfull : full.length = maxUncompressed := List.length_replicate
  have hlonger : longer.length = maxUncompressed + 1 := List.length_replicate
  have hfits : full.length < 2 ^ 32 := by rw [hfull]; decide
  have hfits' : longer.length < 2 ^ 32 := by rw [hlonger]; decide
  have hle : full.length ≤ maxUncompressed := Nat.le_of_eq hfull
  have hnot : ¬ longer.length ≤ maxUncompressed := by rw [hlonger]; exact Nat.not_succ_le_self _
  have hrestores : k.Restores full :=
    Compressors.restores_standard (by rw [hfull]; decide)
  have hrestores' : k.Restores longer :=
    Compressors.restores_standard (by rw [hlonger]; decide)
  obtain ⟨hlz4, hbound⟩ := restored_up_to_limit k .lz4 (by decide)
  obtain ⟨hzstd, -⟩ := restored_up_to_limit k .zstd (by decide)
  obtain ⟨block, hblock, hrestored⟩ := hlz4 full hfits hrestores (fun h => by cases h)
  obtain ⟨block', hblock', hrefused⟩ := hlz4 longer hfits' hrestores' (fun h => by cases h)
  obtain ⟨frames, hframes, hdata⟩ := hzstd full hfits hrestores fun _ => rfl
  obtain ⟨frames', hframes', hnone⟩ := hzstd longer hfits' hrestores' fun _ => rfl
  rw [if_pos hle] at hrestored hdata
  rw [if_neg hnot] at hrefused hnone
  cases hblock
  cases hblock'
  cases hframes
  cases hframes'
  exact ⟨⟨⟨by decide, by decide⟩, ⟨hfits, hrestores, rfl⟩, hfits', hrestores', rfl⟩,
    ⟨hrestored, hrefused⟩, ⟨_, rfl, hdata⟩, ⟨_, rfl, hnone⟩, hbound _ full hrestored⟩

end ShardMesh.Compression
