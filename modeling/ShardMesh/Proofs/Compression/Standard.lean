import ShardMesh.Compression.Standard
import ShardMesh.Proofs.Compression.Lz4
import ShardMesh.Proofs.Compression.Zstd

/-!
# The laws of compressors of one's own

What these compressors make reads back, for as much data as a window may hold. A few bytes are not
searched for repetitions: either format writes them as they are, behind its headers.
-/

namespace ShardMesh

namespace Compression

/-- Before the first position from which a copy may start there is nothing to be described. -/
theorem segment_of_short {rules : CopyRules} {data : Array UInt8} (h : data.size ≤ rules.lead)
    (index : Index) : (segment rules data index 0 data.size).1 = ⟨[], data.toList⟩ := by
  have hlead : ¬ max 0 1 + rules.lead ≤ data.size := by omega
  rw [segment, segmentFrom, if_neg hlead, excerpt, Array.extract_size]

theorem Lz4.length_compress_of_short {data : Bytes} (h : data.length ≤ 12) :
    (Lz4.compress data).length = data.length + 5 := by
  have hsize : data.toArray.size ≤ Lz4.rules.lead := h
  have hdescription : Lz4.descriptionOf data = ⟨[], data⟩ := segment_of_short hsize _
  have hlength : ¬ 15 ≤ data.length := by omega
  simp only [Lz4.compress, hdescription, Lz4.writeBlock, Lz4.writeTail, Lz4.overflow, if_neg hlength,
    List.flatMap_nil, List.nil_append, List.length_append, List.length_cons, List.length_nil,
    Bytes.length_ofNatLE]
  omega

theorem Zstd.length_compress_of_short {data : Bytes} (h : data.length < Zstd.leastCoded) :
    (Zstd.compress data).length = data.length + 9 := by
  have hpiece : data.length < Zstd.pieceSize := Nat.lt_trans h (by decide)
  obtain ⟨candidates, hblock⟩ := Zstd.blocksOf_short hpiece
  rw [Zstd.compress_eq, hblock]
  rcases Zstd.writeBlock_cases (Zstd.frameHeader data.length)
      ((Zstd.frameHeader data.length).ring (Zstd.frameHeader data.length).buffers) {}
      ⟨data, candidates⟩ true with hplain | ⟨content, next, haccept, -⟩
  · rw [hplain]
    simp only [Zstd.writeHeader, Zstd.blockHeader, Zstd.blockHeaderSize, List.length_append,
      List.length_cons, List.length_nil, Bytes.length_ofNatLE]
    omega
  · exact absurd (Zstd.accept?_eq_some haccept).1 (Nat.not_le.mpr h)

end Compression

open Compression

namespace Compressors

theorem restores_standard {data : Bytes} (h : data.length < Nat.pow 2 27) :
    standard.Restores data := by
  have hfour : (Bytes.ofNatLE 4 data.length).length = 4 := Bytes.length_ofNatLE ..
  refine ⟨List.take_left' hfour, ?_, fun frames hframes => ?_⟩
  · have hdrop : (standard.lz4 data).drop 4 = Lz4.writeBlock (Lz4.descriptionOf data) :=
      List.drop_left' hfour
    rw [hdrop]
    exact Lz4.decodeBlock_writeBlock data
  · cases hframes
    exact Zstd.standsFor_compress h

theorem brief_standard : standard.Brief := by
  refine ⟨fun data h => ?_, fun data h => ⟨_, rfl, ?_⟩⟩
  · have hlength : (standard.lz4 data).length = data.length + 5 := Lz4.length_compress_of_short h
    omega
  · have hfew : data.length < Zstd.leastCoded := Nat.lt_of_le_of_lt h (by decide)
    rw [Zstd.length_compress_of_short hfew]
    omega

end Compressors
end ShardMesh
