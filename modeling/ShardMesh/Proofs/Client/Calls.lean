import ShardMesh.Client.Basic
import ShardMesh.Proofs.Connection
import ShardMesh.Proofs.Dispatcher.Journal
import ShardMesh.Proofs.Server.Calls

/-!
# What is done with a client

A session tells a client what happens to it, somebody sends or closes, listeners come and go, and others
use the codec and the counters, too. Few of these calls make a difference to the life of the client: a
session that begins, the first end of a session, and the end of a close. The others leave it as it is
(`Keeps`).
-/

namespace ShardMesh

variable {C P : Type}

namespace Client

/-! ## Calls -/

/-- What can be done with a client. -/
inductive Call (P : Type) where
  /-- A session is to begin, because a dial has succeeded or for whatever reason. -/
  | ready (transport : Transport)
  | frame (bytes : Bytes)
  | closed (reason : DisconnectReason)
  | writeError
  | setTransport (transport : Transport)
  | send (packet : P)
  /-- A close begins. -/
  | beginClose
  /-- A close that has begun ends. -/
  | endClose
  /-- Others have used the codec and the counters. -/
  | share (hub : Hub P)
  /-- A listener comes or goes, or its worker proceeds. -/
  | listen (step : Dispatcher.Step P)

/-- A close does not end before it has begun, and events come from the client alone. -/
def Allows (c : Client C P) : Call P → Prop
  | .endClose => c.closed = true
  | .listen step => step.event?.isNone = true
  | _ => True

instance (c : Client C P) : (call : Call P) → Decidable (c.Allows call)
  | .endClose => inferInstanceAs (Decidable (c.closed = true))
  | .listen step => inferInstanceAs (Decidable (step.event?.isNone = true))
  | .ready _ | .frame _ | .closed _ | .writeError | .setTransport _ | .send _ | .beginClose
  | .share _ => isTrue trivial

/-- Whether a close ends with a call. -/
def Call.endsClose : Call P → Bool
  | .endClose => true
  | _ => false

/-- Whether a close begins with a call. -/
def Call.beginsClose : Call P → Bool
  | .beginClose => true
  | _ => false

/-- Whether the connection, if there is one, is active. -/
def active (c : Client C P) : Bool := c.connection.any (·.active)

/-- What listeners are told at the end of a session. -/
def toldAtEnd (c : Client C P) (reason : DisconnectReason) : List (News P) :=
  if c.active then [Server.endNews reason] else []

/-- The context of the connection, and whether the connection is active. -/
def bond (c : Client C P) : Option (C × Bool) :=
  c.connection.map fun conn => (conn.context, conn.active)

theorem active_eq (c : Client C P) : c.active = c.bond.any (·.2) := by
  unfold active bond
  cases c.connection <;> rfl

theorem active_of_connection {c : Client C P} {conn : Connection C} (h : c.connection = some conn)
    (hactive : conn.active = true) : c.active = true := by
  unfold active
  rw [h]
  exact hactive

/-! ## Calls that make no difference -/

/-- Between two states of a client no session began or ended, and no close ended. -/
structure Keeps (c c' : Client C P) : Prop where
  context : c'.context = c.context
  bond : c'.bond = c.bond
  connected : c'.connected = c.connected
  closed : c.closed = true → c'.closed = true

theorem Keeps.refl (c : Client C P) : c.Keeps c := ⟨rfl, rfl, rfl, id⟩

theorem Keeps.trans {a b c : Client C P} (h : a.Keeps b) (h' : b.Keeps c) : a.Keeps c :=
  ⟨h'.context.trans h.context, h'.bond.trans h.bond, h'.connected.trans h.connected,
    fun hclosed => h'.closed (h.closed hclosed)⟩

/-- What changes neither the context nor the liveness of the connection makes no difference. -/
theorem keeps_connection (c : Client C P) {conn conn' : Connection C} (h : c.connection = some conn)
    (hcontext : conn'.context = conn.context) (hactive : conn'.active = conn.active) (hub : Hub P)
    (roundTrip : UInt64) (dispatcher : Dispatcher P) :
    c.Keeps { c with connection := some conn', hub, roundTrip, dispatcher } := by
  refine ⟨rfl, ?_, rfl, id⟩
  unfold bond
  rw [h, Option.map_some, Option.map_some, hcontext, hactive]

theorem keeps_mapConnection (c : Client C P) {f : Connection C → Connection C}
    (hf : ∀ conn : Connection C, (f conn).context = conn.context ∧ (f conn).active = conn.active) :
    c.Keeps (c.mapConnection f) := by
  refine ⟨rfl, ?_, rfl, id⟩
  show (c.connection.map f).map _ = c.connection.map _
  rw [Option.map_map]
  refine congrArg (Option.map · c.connection) (funext fun conn => ?_)
  show ((f conn).context, (f conn).active) = _
  rw [(hf conn).1, (hf conn).2]

theorem keeps_beginClose (c : Client C P) : c.Keeps c.beginClose := by
  have hclosing : c.Keeps { c with closed := true } := ⟨rfl, rfl, rfl, fun _ => rfl⟩
  exact hclosing.trans (keeps_mapConnection _ fun _ => ⟨rfl, rfl⟩)

/-! ## Calls that make a difference -/

/-- The first end of the session, and no other, makes a difference. -/
theorem onClosed_cases (c : Client C P) (reason : DisconnectReason) :
    (∃ conn, c.connection = some conn ∧ conn.active = true ∧ c.onClosed reason = { c with
      connection := some { conn with active := false }
      connected := false
      hub := c.hub.count (·.connectionClosed)
      dispatcher := (c.dispatcher.dispatch ⟨conn.id, Server.endNews reason⟩).2 }) ∨
    c.active = false ∧ c.onClosed reason = c := by
  unfold active onClosed
  cases c.connection with
  | none => exact .inr ⟨rfl, rfl⟩
  | some conn =>
    obtain ⟨id, active, context, transport, traffic⟩ := conn
    cases active with
    | false => exact .inr ⟨rfl, rfl⟩
    | true =>
      have hnews : (if reason.isError then .failed else .inactive : News P) =
          Server.endNews reason := by cases reason <;> rfl
      dsimp only [Connection.markInactive]
      rw [hnews]
      exact .inl ⟨_, rfl, rfl, rfl⟩

theorem keeps_close (c : Client C P) : c.Keeps (c.mapConnection (·.close)) :=
  c.keeps_mapConnection fun _ => ⟨rfl, rfl⟩

/-- The session begins when the client is not closed and still has its context; otherwise nothing
happens. -/
theorem onReady_cases (c : Client C P) (transport : Transport) :
    (∃ context, c.closed = false ∧ c.context = some context ∧ (c.onReady transport).1 = .ok 0 ∧
      (c.onReady transport).2 = { c with
        context := none
        connection := some { context, transport }
        connected := true
        hub := c.hub.count (·.connectionEstablished)
        dispatcher := (c.dispatcher.dispatch ⟨none, .active⟩).2 }) ∨
    (c.closed = true ∨ c.context = none) ∧ (∃ e, (c.onReady transport).1 = .error e) ∧
      (c.onReady transport).2 = c := by
  unfold onReady
  cases hclosed : c.closed with
  | true => exact .inr ⟨.inl rfl, ⟨_, rfl⟩, rfl⟩
  | false =>
    cases hcontext : c.context with
    | none => exact .inr ⟨.inr rfl, ⟨_, rfl⟩, rfl⟩
    | some context => exact .inl ⟨context, rfl, rfl, rfl, rfl⟩

variable [Packet P]

/-- A frame on an active connection is counted, and its packet is told. -/
theorem onFrame_cases (c : Client C P) (bytes : Bytes) :
    (∃ conn conn' hub roundTrip, c.connection = some conn ∧ conn.active = true ∧
      conn'.id = conn.id ∧ conn'.context = conn.context ∧ conn'.active = conn.active ∧
      c.onFrame bytes = { c with
        connection := some conn'
        hub
        roundTrip
        dispatcher := c.dispatcher.hear
          ((c.hub.packetOf bytes).map fun packet => ⟨conn.id, .packet packet⟩).toList }) ∨
    c.active = false ∧ c.onFrame bytes = c := by
  unfold active onFrame
  cases c.connection with
  | none => exact .inr ⟨rfl, rfl⟩
  | some conn =>
    dsimp only
    cases hactive : conn.active with
    | false => exact .inr ⟨hactive, rfl⟩
    | true =>
      have hfirst := conn.receive_fst c.hub bytes
      have hsame := (conn.alike_receive c.hub bytes).1
      have hcontext := conn.context_receive c.hub bytes
      rw [if_neg (by decide)]
      rcases hreceive : conn.receive c.hub bytes with ⟨_ | packet, conn', hub⟩
      · rw [hreceive] at hfirst hsame hcontext
        rw [← hfirst]
        exact .inl ⟨conn, conn', hub, c.roundTrip, rfl, hactive, hsame.1, hcontext,
          hsame.2, rfl⟩
      · rw [hreceive] at hfirst hsame hcontext
        rw [← hfirst]
        refine .inl ⟨conn, conn', hub, (Packet.ping? packet).elim c.roundTrip fun p =>
          c.since p.sentAtMicros, rfl, hactive, hsame.1, hcontext, hsame.2, ?_⟩
        rw [← hsame.1]
        rfl

theorem keeps_onFrame (c : Client C P) (bytes : Bytes) : c.Keeps (c.onFrame bytes) := by
  rcases c.onFrame_cases bytes with
    ⟨conn, conn', hub, roundTrip, hconnection, -, -, hcontext, hactive, hafter⟩ | ⟨-, hafter⟩
  · rw [hafter]
    exact c.keeps_connection hconnection hcontext hactive _ _ _
  · rw [hafter]
    exact .refl c

theorem keeps_send (c : Client C P) (packet : P) : c.Keeps (c.send packet).2 := by
  unfold send
  split
  · rename_i conn hconnection _
    exact c.keeps_connection hconnection (conn.context_send c.hub packet)
      (conn.alike_send c.hub packet).1.2 _ _ _
  · exact .refl c

/-! ## Runs -/

/-- The client after a call. -/
def apply (c : Client C P) : Call P → Client C P
  | .ready transport => (c.onReady transport).2
  | .frame bytes => c.onFrame bytes
  | .closed reason => c.onClosed reason
  | .writeError => c.onWriteError
  | .setTransport transport => c.mapConnection ({ · with transport })
  | .send packet => (c.send packet).2
  | .beginClose => c.beginClose
  | .endClose => c.endClose
  | .share hub => { c with hub }
  | .listen step =>
    let run := DispatcherRun.step ⟨c.dispatcher, c.hub.metrics, []⟩ step
    { c with dispatcher := run.dispatcher, hub := { c.hub with metrics := run.metrics } }

/-- A client is closed by a close that begins, and by nothing else. -/
theorem closed_apply (c : Client C P) (call : Call P) :
    (c.apply call).closed = (c.closed || call.beginsClose) := by
  have hend (reason : DisconnectReason) : (c.onClosed reason).closed = c.closed := by
    rcases c.onClosed_cases reason with ⟨conn, -, -, hafter⟩ | ⟨-, hafter⟩ <;> rw [hafter]
  cases call with
  | beginClose => exact (Bool.or_true _).symm
  | ready transport =>
    refine Eq.trans ?_ (Bool.or_false _).symm
    show (c.onReady transport).2.closed = c.closed
    rcases c.onReady_cases transport with ⟨context, -, -, -, hafter⟩ | ⟨-, -, hafter⟩ <;> rw [hafter]
  | frame bytes =>
    refine Eq.trans ?_ (Bool.or_false _).symm
    show (c.onFrame bytes).closed = c.closed
    rcases c.onFrame_cases bytes with ⟨_, _, _, _, -, -, -, -, -, hafter⟩ | ⟨-, hafter⟩ <;> rw [hafter]
  | closed reason => exact (hend reason).trans (Bool.or_false _).symm
  | writeError => exact (hend .reset).trans (Bool.or_false _).symm
  | send packet =>
    refine Eq.trans ?_ (Bool.or_false _).symm
    show (c.send packet).2.closed = c.closed
    unfold send
    split <;> rfl
  | setTransport | endClose | share | listen => exact (Bool.or_false _).symm

/-- The client after some calls. -/
def after (c : Client C P) (calls : List (Call P)) : Client C P := calls.foldl apply c

theorem closed_after (c : Client C P) (calls : List (Call P)) :
    (c.after calls).closed = (c.closed || calls.any (·.beginsClose)) := by
  induction calls generalizing c with
  | nil => exact (Bool.or_false _).symm
  | cons call calls ih =>
    rw [List.any_cons, ← Bool.or_assoc, ← closed_apply]
    exact ih (c.apply call)

/-- Calls that may come in this order. -/
def Orderly (c : Client C P) : List (Call P) → Prop
  | [] => True
  | call :: calls => c.Allows call ∧ (c.apply call).Orderly calls

instance decidableOrderly (c : Client C P) : (calls : List (Call P)) → Decidable (c.Orderly calls)
  | [] => isTrue trivial
  | call :: calls =>
    have := decidableOrderly (c.apply call) calls
    inferInstanceAs (Decidable (c.Allows call ∧ (c.apply call).Orderly calls))

/-- What listeners are told at a call. -/
def toldBy (c : Client C P) : Call P → List (News P)
  | .ready transport => if (c.onReady transport).1.isOk then [.active] else []
  | .frame bytes => if c.active then ((c.hub.packetOf bytes).map .packet).toList else []
  | .closed reason => c.toldAtEnd reason
  | .writeError => c.toldAtEnd .reset
  | _ => []

/-- What listeners are told in the course of some calls. -/
def told (c : Client C P) : List (Call P) → List (News P)
  | [] => []
  | call :: calls => c.toldBy call ++ (c.apply call).told calls

/-- How many sessions begin at a call. -/
def sessionsBy (c : Client C P) : Call P → Nat
  | .ready transport => (c.onReady transport).1.isOk.toNat
  | _ => 0

/-- How many sessions begin in the course of some calls. -/
def sessions (c : Client C P) : List (Call P) → Nat
  | [] => 0
  | call :: calls => c.sessionsBy call + (c.apply call).sessions calls

/-- What happens to the dispatcher at a call. -/
def stepsBy (c : Client C P) : Call P → List (Dispatcher.Step P)
  | .listen step => [step]
  | call =>
    (c.toldBy call).map fun news => .dispatch ⟨(c.apply call).connection.bind (·.id), news⟩

/-- What happens to the dispatcher in the course of some calls. -/
def steps (c : Client C P) : List (Call P) → List (Dispatcher.Step P)
  | [] => []
  | call :: calls => c.stepsBy call ++ (c.apply call).steps calls

end Client
end ShardMesh
