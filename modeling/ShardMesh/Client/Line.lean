import ShardMesh.Client.Basic
import ShardMesh.Client.Network
import ShardMesh.Session.Exchange

/-!
# A client on the line

A line is a client together with what goes on around it: the dial that has not ended yet, the
exchange that the dial led to, the probes, and whoever waits for the session to end. A dial is given
up when the read timeout has passed; a session that does not end in time when it is closed is left
to itself.

Everything that waits for a time is an alarm. `Line.settle` does what can be done now, `Line.ring`
what an alarm is for, and `Line.advance` lets time pass from alarm to alarm.
-/

namespace ShardMesh

/-- A client with its dial, its exchanges and its alarms. -/
structure Line (C P : Type) where
  client : Client C P
  /-- The dial that has not ended, and when it began. -/
  dialing : Option (Dial × Nat) := none
  /-- How the latest connecting ended, until that is asked for. -/
  outcome : Option (Except ProtocolError Unit) := none
  /-- What dials led to, latest first. There is one peer at most. -/
  exchanges : List Exchange := []
  /-- When the next probe is due and when the one before was, in nanoseconds. -/
  probing : Option (Nat × Nat) := none
  /-- How long the end of the session is waited for. -/
  closing : Option Alarm := none
  /-- The end of the session has been waited for. -/
  awaited : Bool := false

/-- What an alarm of a line is for. -/
inductive LineAlarm where
  /-- The dial ends, or is given up. -/
  | dial
  /-- The end of the session is not waited for any longer. -/
  | close
  /-- A deadline of the session has come. -/
  | session
  /-- A probe is due. -/
  | probe
  deriving DecidableEq, Repr

namespace Line

variable {C P : Type} [Packet P]

/-! ## Connecting -/

/-- Begins to connect. A closed client does not even dial. -/
def connect (l : Line C P) (n : Network) (now : Nat) : Line C P × Network :=
  if l.client.closed then ({ l with outcome := some (.error .connectionClosed) }, n)
  else
    let (dial, n) := n.dial l.client.options.host l.client.options.port
    ({ l with dialing := some (dial, now) }, n)

/-- The dial ended in a stream: the session begins, unless the client refuses it. -/
def beginSession (l : Line C P) (pipe : Pipe) (now : Nat) : Line C P :=
  let (result, x, client) := Exchange.begin l.client pipe l.client.options.readTimeout now
  let nanos := now * ClientOptions.nanosPerMilli
  { l with
    client
    exchanges := x :: l.exchanges
    outcome := some result
    probing :=
      match result, client.probes, client.options.keepalive with
      | .ok (), true, some interval => some (nanos + interval, nanos)
      | _, _, _ => l.probing }

/-- The dial ends, or is given up. -/
def endDial (l : Line C P) (now : Nat) : Line C P :=
  match l.dialing with
  | none => l
  | some (dial, _) =>
    let l := { l with dialing := none }
    match (dial.within l.client.options.readTimeout).1 with
    | .ok pipe => l.beginSession pipe now
    | .error e => { l with outcome := some (.error e) }

/-! ## The peer

The streams of a line lead to one place, where there is one peer at a time. -/

/-- Whether there is a peer at the far end. -/
def hasPeer (l : Line C P) : Bool := l.exchanges.any (·.attended)

/-- Whoever is at the far end goes away. -/
def dropPeer (l : Line C P) : Line C P := { l with exchanges := l.exchanges.map Exchange.leave }

/-- The peer of the latest exchange takes the place of the one before. -/
def keepLatestPeer (l : Line C P) : Line C P :=
  match l.exchanges with
  | [] => l
  | latest :: earlier =>
    if latest.attended then { l with exchanges := latest :: earlier.map Exchange.leave } else l

/-- Does something with the exchange whose peer is there, if there is one. -/
def withPeer {α : Type} (l : Line C P)
    (f : Client C P → Exchange → α × Exchange × Client C P) : Option α × Line C P :=
  match l.exchanges.zipIdx.find? (·.1.attended) with
  | some (x, i) =>
    let (a, x, client) := f l.client x
    (some a, { l with exchanges := l.exchanges.set i x, client })
  | none => (none, l)

/-! ## Closing -/

/-- Whether a session goes on. -/
def isLive (l : Line C P) : Bool := l.exchanges.any (·.session.phase ≠ .over)

/-- Changes all sessions. -/
def mapSessions (l : Line C P) (f : Session → Session) : Line C P :=
  { l with exchanges := l.exchanges.map fun x => { x with session := f x.session } }

/-- The end of the session is not waited for any longer, or it has come. -/
def endClose (l : Line C P) : Line C P := { l with closing := none, client := l.client.endClose }

/-- Closes the client, and waits for the end of the session unless that was done before. Who would
not wait at all leaves the session to itself. -/
def close (l : Line C P) (now timeout : Nat) : Line C P :=
  let l := { l with client := l.client.beginClose, probing := none }
  if l.awaited || !l.isLive then { l with client := l.client.endClose }
  else
    let l := { l with awaited := true }
    if timeout = 0 then (l.mapSessions Session.abandon).endClose
    else { l with closing := some (.after now timeout) }

/-! ## Time -/

/-- Sends the probe that is due, and sets the alarm for the next; without a session there is
none. -/
def probe (l : Line C P) : Line C P :=
  match l.probing, l.client.options.keepalive with
  | some (due, _), some interval =>
    if l.client.connected then
      { l with client := l.client.probe, probing := some (due + interval, due) }
    else { l with probing := none }
  | _, _ => { l with probing := none }

/-- All alarms that are set. -/
def alarms (l : Line C P) : List (Alarm × LineAlarm) :=
  let dial := l.dialing.map fun (dial, began) =>
    (⟨began, began + (dial.within l.client.options.readTimeout).2⟩, .dial)
  let close := l.closing.map fun alarm => (alarm, .close)
  let session := l.exchanges.filterMap fun x => x.session.alarm?.map fun alarm => (alarm, .session)
  let millis (nanos : Nat) : Nat :=
    (nanos + ClientOptions.nanosPerMilli - 1) / ClientOptions.nanosPerMilli
  let probe := l.probing.map fun (due, last) =>
    (.after (millis last) (millis due - millis last), .probe)
  dial.toList ++ close.toList ++ session ++ probe.toList

/-- Lets all sessions do what they can do now. -/
def settle (l : Line C P) (now : Nat) : Line C P :=
  let (exchanges, client) := l.exchanges.foldr (fun x (done, client) =>
    let (session, client) := x.session.settle client now
    ({ x with session } :: done, client)) ([], l.client)
  let l := { l with exchanges, client }
  if l.closing.isSome && !l.isLive then l.endClose else l

/-- What an alarm is for. A dial that is answered brings a peer along, for whom the one before
leaves. -/
def ring (l : Line C P) (now : Nat) : LineAlarm → Line C P
  | .dial => (l.endDial now).keepLatestPeer
  | .close => (l.mapSessions Session.abandon).endClose
  | .probe => l.probe
  | .session =>
    let (exchanges, client) := l.exchanges.foldr (fun x (done, client) =>
      if x.session.alarm?.any (·.due ≤ now) then
        let (session, client) := x.session.ring client now
        ({ x with session } :: done, client)
      else (x :: done, client)) ([], l.client)
    { l with exchanges, client }

/-- Lets time pass from alarm to alarm, up to a target or until it is enough: the line, and what
time it is then. -/
def runFor (fuel : Nat) (enough : Line C P → Bool) (l : Line C P) (now target : Nat) :
    Line C P × Nat :=
  match fuel with
  | 0 => (l, target)
  | fuel + 1 =>
    let l := l.settle now
    if enough l then (l, now)
    else
      match Alarm.first? l.alarms with
      | some (alarm, what) =>
        if alarm.due ≤ target then
          let now := max now alarm.due
          runFor fuel enough (l.ring now what) now target
        else (l, target)
      | none => (l, target)

/-- Enough fuel: no more than a few alarms ring in a millisecond. -/
def fuel (now target : Nat) : Nat := 8 * (target - now + 4)

/-- Lets time pass up to a target. -/
def advance (l : Line C P) (now target : Nat) : Line C P :=
  (l.runFor (fuel now target) (fun _ => false) now target).1

/-- Lets time pass until something has happened, at most for a limit; everything that is due at that
time happens, too. -/
def await (happened : Line C P → Bool) (l : Line C P) (now limit : Nat) : Line C P × Nat :=
  let (l, now) := l.runFor (fuel now (now + limit)) happened now (now + limit)
  (l.advance now now, now)

end Line
end ShardMesh
