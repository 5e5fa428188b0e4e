import ShardMesh.Compression.Lz4.Writer
import ShardMesh.Compression.Stage
import ShardMesh.Compression.Zstd.Writer

/-!
# Compressors of one's own

A program that brings no compressors along uses these. They lay blocks and frames out in their own
way; other compressors make other bytes of the same data.
-/

namespace ShardMesh

/-- The compressors for whoever has no others. They do not fail. -/
instance Compressors.standard : Compressors where
  lz4 := Compression.Lz4.compress
  zstd data := some (Compression.Zstd.compress data)

/-- The compressed form of data that these compressors make. -/
def Compression.compress : Compression → Bytes → Bytes
  | .none, data => data
  | .lz4, data => Lz4.compress data
  | .zstd, data => Zstd.compress data

end ShardMesh
