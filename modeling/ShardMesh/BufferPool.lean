import ShardMesh.Bytes

/-!
# A pool of scratch buffers

Buffers of one size are kept on a stack: the one returned last is handed out first. They are not
cleared in between. An empty pool makes a new buffer, and at most `maxIdle` are kept.
-/

namespace ShardMesh

/-- Buffers that nobody holds, the one returned last in front. -/
structure BufferPool where
  /-- The length of every buffer of the pool. -/
  bufferSize : Nat
  /-- The buffers to hand out. -/
  idle : List Bytes
  deriving DecidableEq, Repr, Inhabited

namespace BufferPool

/-- The most buffers that are kept. -/
def maxIdle : Nat := 256

/-- The length of a scratch buffer where nothing else is said. -/
def defaultBufferSize : Nat := 4096

/-- A buffer of zeros. -/
def freshBuffer (size : Nat) : Bytes := List.replicate size 0

/-- A pool that holds `count` buffers of zeros, as far as it may. -/
def ofSize (count bufferSize : Nat) : BufferPool :=
  ⟨bufferSize, List.replicate (min count maxIdle) (freshBuffer bufferSize)⟩

/-- The pool used where nothing else is said. -/
def standard : BufferPool := ofSize 8 defaultBufferSize

/-- How many buffers can be handed out without making a new one. -/
def available (pool : BufferPool) : Nat := pool.idle.length

/-- Hands out a buffer. -/
def acquire (pool : BufferPool) : Bytes × BufferPool :=
  match pool.idle with
  | [] => (freshBuffer pool.bufferSize, pool)
  | buffer :: idle => (buffer, { pool with idle })

/-- Takes a buffer back. One of another length is of no use, and a full pool keeps no more. -/
def release (pool : BufferPool) (buffer : Bytes) : BufferPool :=
  if buffer.length = pool.bufferSize ∧ pool.idle.length < maxIdle then
    { pool with idle := buffer :: pool.idle }
  else pool

/-- The pool as it appears in diagnostics. -/
def describe (pool : BufferPool) : String :=
  "BufferPool \x7b buffer_size: " ++ toString pool.bufferSize ++ ", available: " ++
    toString pool.available ++ " \x7d"

end BufferPool
end ShardMesh
