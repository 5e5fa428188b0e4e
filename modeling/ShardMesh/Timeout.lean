import ShardMesh.Alarm
import ShardMesh.Error

/-!
# Waiting for at most so long
-/

namespace ShardMesh

/-- Something that ends after some time, or never. -/
structure Pending (α : Type) where
  /-- After how many milliseconds it ends, if it ever does. -/
  delay : Option Nat := some 0
  outcome : Except ProtocolError α

namespace Pending

variable {α : Type}

/-- The same some milliseconds later. -/
def later (p : Pending α) (millis : Nat) : Pending α :=
  { p with delay := p.delay.map (· + waitFor millis) }

/-- What comes of waiting for at most so many milliseconds, and how long that takes. To end at the
limit is to end in time. -/
def within (p : Pending α) (limit : Nat) : Except ProtocolError α × Nat :=
  let limit := waitFor limit
  match p.delay with
  | none => (.error .timeout, limit)
  | some delay => if delay ≤ limit then (p.outcome, delay) else (.error .timeout, limit)

end Pending
end ShardMesh
