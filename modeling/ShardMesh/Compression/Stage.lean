import ShardMesh.Compression.Compressors
import ShardMesh.Error

/-!
# The compression stage

A codec leaves payloads as they are or compresses them as an LZ4 block or Zstandard frames. What
arrives compressed may stand for at most `maxUncompressed` bytes.
-/

namespace ShardMesh

/-- The most bytes that compressed data may stand for. -/
def maxUncompressed : Nat := 1048576

/-- What happens to a marshaled packet before it is encrypted. -/
inductive Compression where
  | none
  | lz4
  | zstd
  deriving DecidableEq, Repr, Inhabited

namespace Compression

/-- The compressed form of data that the compressors make. -/
def compressWith (k : Compressors) : Compression → Bytes → Except ProtocolError Bytes
  | .none, data => .ok data
  | .lz4, data => .ok (k.lz4 data)
  | .zstd, data =>
    match k.zstd data with
    | some frames => .ok frames
    | Option.none => .error .compressionFailure

/-- The data that a compressed form stands for. -/
def decompress (c : Compression) (data : Bytes) : Except ProtocolError Bytes :=
  let found :=
    match c with
    | .none => some data
    | .lz4 => Lz4.decompress maxUncompressed data
    | .zstd => Zstd.decompress maxUncompressed data
  match found with
  | some plain => .ok plain
  | Option.none => .error .decompressionFailure

/-- The stage's name in diagnostics. -/
def describe : Compression → String
  | .none => "NoCompression"
  | .lz4 => "Lz4Compression"
  | .zstd => "ZstdCompression"

end Compression
end ShardMesh
