import ShardMesh.Compression.Zstd.Receiver

/-!
# The course of a stream

The input of a stream comes in chunks. Where a chunk ends the decoder stops, and the reader gets
what is in hand; so chunks end portions.
-/

namespace ShardMesh.Compression.Zstd

/-- The bytes of a chunk. -/
def chunkSize : Nat := 131075

/-- How much of the input is consumed, and how the output is taken. -/
structure Course where
  position : Nat := 0
  receiver : Receiver
  deriving DecidableEq, Repr, Inhabited

namespace Course

/-- How many bytes of input there are up to the end of the chunk, as far as the input goes. -/
def atHand (c : Course) : Nat := chunkSize - c.position % chunkSize

/-- Consumes bytes of input. -/
def consume (c : Course) (count : Nat) : Course :=
  let position := c.position + count
  { position
    receiver :=
      if c.position / chunkSize < position / chunkSize then c.receiver.close else c.receiver }

/-- Hands output over. -/
def deliver (c : Course) (count : Nat) : Course := { c with receiver := c.receiver.deliver count }

/-- The decoder stops. -/
def pause (c : Course) : Course := { c with receiver := c.receiver.close }

end Course
end ShardMesh.Compression.Zstd
