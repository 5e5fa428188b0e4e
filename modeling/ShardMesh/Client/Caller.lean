import ShardMesh.Client.Line

/-!
# A client by itself

A caller is a line with a network of its own and a clock. Its operations wait for their ends, and
time passes while they do.
-/

namespace ShardMesh

/-- A line with its network and its clock. -/
structure Caller (C P : Type) where
  line : Line C P
  network : Network
  /-- The time that has passed, in milliseconds. -/
  now : Nat := 0

namespace Caller

variable {C P : Type} [Packet P]

/-- The caller of a client that is not connected yet. -/
def new (options : ClientOptions) (hub : Hub P) (context : C) (clock : UInt64)
    (plans : List DialPlan) : Caller C P :=
  { line := { client := Client.new options hub context clock }
    network := { plans := Dict.ofList [(options.port, plans)] } }

/-- The client on the line. -/
def client (c : Caller C P) : Client C P := c.line.client

/-- Does something with the client. -/
def withClient {α : Type} (c : Caller C P) (f : Client C P → α × Client C P) : α × Caller C P :=
  let (a, client) := f c.client
  (a, { c with line := { c.line with client } })

/-- Does something with the exchange whose peer is there, if there is one. -/
def withPeer {α : Type} (c : Caller C P)
    (f : Client C P → Exchange → α × Exchange × Client C P) : Option α × Caller C P :=
  let (a, line) := c.line.withPeer f
  (a, { c with line })

/-- Connects, and waits for how that ends. -/
def connect (c : Caller C P) : Except ProtocolError Unit × Caller C P :=
  let (line, network) := c.line.connect c.network c.now
  let (line, now) := line.await (·.outcome.isSome) c.now line.client.options.readTimeout
  (line.outcome.getD (.error .timeout), { line := { line with outcome := none }, network, now })

/-- Closes the client, and waits for the end of the session. -/
def close (c : Caller C P) (timeout : Nat) : Caller C P :=
  let (line, now) := (c.line.close c.now timeout).await (·.closing.isNone) c.now timeout
  { c with line, now }

/-- Lets time pass. -/
def advance (c : Caller C P) (millis : Nat) : Caller C P :=
  let target := c.now + waitFor millis
  { c with line := c.line.advance c.now target, now := target }

/-- Takes out what was dialed. -/
def dialed (c : Caller C P) : List String × Caller C P :=
  let (dialed, network) := c.network.report
  (dialed, { c with network })

end Caller
end ShardMesh
