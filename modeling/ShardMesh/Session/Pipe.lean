import ShardMesh.Bytes

/-!
# The stream of a session

A stream has a near end, which the session reads and writes, and a far end, which belongs to the
peer. In each direction it holds what was written and not yet read, up to a capacity. An end may
finish its own direction, which the other end notices after it has read everything, or be gone
altogether, and then writing to it fails.
-/

namespace ShardMesh

/-- A stream between two ends. -/
structure Pipe where
  /-- How many bytes each direction holds. -/
  capacity : Nat := 1048576
  /-- What the near end wrote and the far end has not read. -/
  toFar : Bytes := []
  /-- What the far end wrote and the near end has not read. -/
  toNear : Bytes := []
  /-- The near end writes nothing more. -/
  nearFinished : Bool := false
  /-- The far end writes nothing more. -/
  farFinished : Bool := false
  /-- Nobody reads at the near end. -/
  nearGone : Bool := false
  /-- Nobody reads at the far end. -/
  farGone : Bool := false
  /-- From now on reading at the near end fails so. -/
  readFault : Option String := none
  /-- From now on writing at the near end fails so. -/
  writeFault : Option String := none
  deriving DecidableEq, Repr, Inhabited

namespace Pipe

/-- Why nothing can be written to an end that is gone. -/
def broken : String := "broken pipe"

/-- What an end finds when it reads. -/
inductive Reading where
  /-- Some bytes. -/
  | data (bytes : Bytes)
  /-- No bytes, and there will be none. -/
  | ended
  /-- No bytes yet. -/
  | nothing
  | fault (reason : String)
  deriving DecidableEq, Repr, Inhabited

/-- Reads everything that is there at the near end. -/
def readNear (p : Pipe) : Reading × Pipe :=
  match p.readFault with
  | some reason => (.fault reason, p)
  | none =>
    if !p.toNear.isEmpty then (.data p.toNear, { p with toNear := [] })
    else if p.farFinished || p.farGone then (.ended, p)
    else (.nothing, p)

/-- Writes as many bytes as there is room for at the near end, and gives the rest. -/
def writeNear (p : Pipe) (bytes : Bytes) : Except String (Bytes × Pipe) :=
  match p.writeFault with
  | some reason => .error reason
  | none =>
    if p.farGone || p.nearFinished then .error broken
    else
      let room := p.capacity - p.toFar.length
      .ok (bytes.drop room, { p with toFar := p.toFar ++ bytes.take room })

/-- Writes as many bytes as there is room for at the far end, and gives the rest. -/
def writeFar (p : Pipe) (bytes : Bytes) : Except String (Bytes × Pipe) :=
  if p.nearGone || p.farFinished then .error broken
  else
    let room := p.capacity - p.toNear.length
    .ok (bytes.drop room, { p with toNear := p.toNear ++ bytes.take room })

/-- Reads everything that is there at the far end. -/
def readFar (p : Pipe) : Bytes × Pipe := (p.toFar, { p with toFar := [] })

/-- Whether the far end has read everything there ever will be. -/
def endedFar (p : Pipe) : Bool := p.toFar.isEmpty && (p.nearFinished || p.nearGone)

end Pipe
end ShardMesh
