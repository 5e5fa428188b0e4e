import ShardMesh.Bridge.Link
import ShardMesh.Listener
import ShardMesh.Metrics

/-!
# Those who watch the links

Observers are told, peer by peer, that a link came up, what packets arrived, and that it went down.
How an observer takes that has no effect on the others or on the link.
-/

namespace ShardMesh

/-- Someone who watches all links of a node. -/
structure Observer (P : Type) where
  name : String
  /-- How the observer reacts to what it is told about a peer. -/
  react : String → LinkNotice P → Reaction
  /-- What it was told about which peer, latest first. -/
  told : List (String × LinkNotice P) := []

namespace Observer

variable {P : Type}

/-- Tells an observer something about a peer. -/
def tell (o : Observer P) (m : Metrics) (peer : String) (notice : LinkNotice P) :
    Observer P × Metrics :=
  ({ o with told := (peer, notice) :: o.told },
    match o.react peer notice with
    | .ignored | .completed => m
    | .failed => m.listenerFailure
    | .panicked => m.listenerPanic)

/-- Tells all observers something about a peer, one after the other. -/
def tellAll (m : Metrics) (peer : String) (notice : LinkNotice P) :
    List (Observer P) → List (Observer P) × Metrics
  | [] => ([], m)
  | o :: rest =>
    let (o, m) := o.tell m peer notice
    let (rest, m) := tellAll m peer notice rest
    (o :: rest, m)

/-- What the observer was told about a peer, earliest first. -/
def history (o : Observer P) (peer : String) : List (LinkNotice P) :=
  (o.told.reverse.filter (·.1 = peer)).map Prod.snd

/-- What the observer was told, by peer. -/
def histories (o : Observer P) : List (String × List (LinkNotice P)) :=
  (o.told.map Prod.fst).eraseDups.map fun peer => (peer, o.history peer)

end Observer
end ShardMesh
