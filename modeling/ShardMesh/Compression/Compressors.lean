import ShardMesh.Compression.Lz4
import ShardMesh.Compression.Zstd.Stream

/-!
# Compressors

Which frames or which block a compressor makes of data is its own affair. So a codec is given its
compressors, and all that is known of them are laws: that what they make reads back
(`Compressors.Restores`), and that they make little of little (`Compressors.Brief`).
-/

namespace ShardMesh

/-- The compressors of a codec. -/
class Compressors where
  /-- The length of the data, and an LZ4 block. -/
  lz4 : Bytes → Bytes
  /-- Zstandard frames, unless the compressor fails. -/
  zstd : Bytes → Option Bytes
  deriving Inhabited

namespace Compressors

/-- What the compressors make of data reads back. -/
structure Restores (k : Compressors) (data : Bytes) : Prop where
  /-- The length of the data comes first, as far as four bytes can say it. -/
  lz4_header : (k.lz4 data).take 4 = Bytes.ofNatLE 4 data.length
  lz4_block : Compression.Lz4.decodeBlock data.length ((k.lz4 data).drop 4) = some data
  zstd_frames : ∀ frames, k.zstd data = some frames → Compression.Zstd.StandsFor frames data

/-- Of a few bytes the compressors make few bytes more, and they do not fail. -/
structure Brief (k : Compressors) : Prop where
  lz4 : ∀ data : Bytes, data.length ≤ 12 → (k.lz4 data).length ≤ data.length + 64
  zstd : ∀ data : Bytes, data.length ≤ 12 →
    ∃ frames, k.zstd data = some frames ∧ frames.length ≤ data.length + 64

end Compressors
end ShardMesh
