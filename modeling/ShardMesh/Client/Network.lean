import ShardMesh.Client.Options
import ShardMesh.Dict
import ShardMesh.Session.Pipe
import ShardMesh.Timeout

/-!
# What becomes of dials

Seen from a client, a network is nothing but what is planned for the dials to each port, one after
the other. A dial either ends after some time, in a stream or an error, or it never ends.
-/

namespace ShardMesh

/-- What becomes of a dial. -/
abbrev Dial := Pending Pipe

/-- What is planned for a dial. -/
inductive DialPlan where
  /-- A peer answers at once. -/
  | answer
  /-- A peer answers at once, and goes away. -/
  | desert
  /-- The host refuses. -/
  | refuse
  /-- The host cannot be reached. -/
  | unreachable
  /-- Nothing happens. -/
  | hang
  /-- Something happens some milliseconds later. -/
  | later (millis : Nat) (plan : DialPlan)
  deriving DecidableEq, Repr, Inhabited

/-- What becomes of a dial to a host. -/
def DialPlan.dial (host : String) : DialPlan → Dial
  | .answer => { outcome := .ok {} }
  | .desert => { outcome := .ok { farGone := true } }
  | .refuse => { outcome := .error (.io ("refused " ++ host)) }
  | .unreachable => { outcome := .error (.io "Network is unreachable (os error 101)") }
  | .hang => { delay := none, outcome := .error .timeout }
  | .later millis plan => (plan.dial host).later millis

/-- What is planned for the dials that are still to come, and the addresses dialed so far. -/
structure Network where
  plans : Dict UInt16 (List DialPlan)
  /-- Latest last. -/
  dialed : List String := []
  deriving Inhabited

namespace Network

/-- What becomes of the next dial to an address. Where nothing is planned, it is refused. -/
def dial (n : Network) (host : String) (port : UInt16) : Dial × Network :=
  let n := { n with dialed := n.dialed ++ [ClientOptions.address host port] }
  match n.plans.get? port with
  | some (plan :: rest) => (plan.dial host, { n with plans := n.plans.set port rest })
  | _ => (DialPlan.refuse.dial host, n)

/-- Takes the addresses dialed so far out. -/
def report (n : Network) : List String × Network := (n.dialed, { n with dialed := [] })

end Network
end ShardMesh
