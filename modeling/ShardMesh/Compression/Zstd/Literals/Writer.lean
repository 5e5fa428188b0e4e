import ShardMesh.Compression.Zstd.Huffman.Design
import ShardMesh.Compression.Zstd.Literals

/-!
# Writing the literals section

Literals are written as they are, or with a code of their own if that is shorter: few of them as one
stream, many as four.
-/

namespace ShardMesh.Compression.Zstd

/-- Literals as they are; their number takes 5, 12 or 20 bits. -/
def plainLiterals (literals : Bytes) : Bytes :=
  let count := literals.length
  (if count < 32 then Bytes.ofNatLE 1 (count * 8)
    else if count < 4096 then Bytes.ofNatLE 2 (count * 16 + 4)
    else Bytes.ofNatLE 3 (count * 16 + 12)) ++ literals

/-- Four streams of a quarter of the literals each, behind the lengths of the first three. -/
def writeFourStreams (words : Array (Nat × Nat)) (literals : Bytes) : Bytes :=
  let quarter := (literals.length + 3) / 4
  let stream (i : Nat) := writeStream words ((literals.drop (i * quarter)).take quarter)
  let (a, b, c) := (stream 0, stream 1, stream 2)
  Bytes.ofNatLE 2 a.length ++ Bytes.ofNatLE 2 b.length ++ Bytes.ofNatLE 2 c.length ++
    a ++ b ++ c ++ stream 3

/-- Literals with a code of their own. -/
def codedLiterals? (literals : Bytes) : Option Bytes := do
  let weights := weightsOf (sharesOf literals)
  let code ← PrefixCode.ofWeights? weights
  let description ← describeWeights? weights
  let count := literals.length
  let few := count < 1024
  let words := code.words
  let streams := if few then writeStream words literals else writeFourStreams words literals
  let content := description ++ streams
  let (form, width) :=
    if few then (0, 10) else if max count content.length < 16384 then (2, 14) else (3, 18)
  if Nat.pow 2 width ≤ content.length then none
  else
    let head := 2 + form * 4 + count * 16 + content.length * Nat.pow 2 (4 + width)
    return Bytes.ofNatLE ((4 + 2 * width) / 8) head ++ content

/-- The literals section. -/
def writeLiterals (literals : Bytes) : Bytes :=
  match codedLiterals? literals with
  | some coded => shorter (plainLiterals literals) coded
  | none => plainLiterals literals

end ShardMesh.Compression.Zstd
