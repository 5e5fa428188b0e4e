import ShardMesh.Bridge.Basic

/-!
# A bridge as time passes

Lines proceed by themselves and tell their links what became of them, and links answer. This goes
on until nobody has anything new to tell; then only time can change something: a session's deadline
comes, a dial ends, or a link tries again.
-/

namespace ShardMesh

/-- What an alarm of a bridge is for. -/
inductive BridgeAlarm where
  /-- A link is to be tried again. -/
  | retry (link : Nat)
  | line (place : Nat) (what : LineAlarm)
  deriving DecidableEq, Repr

namespace Bridge

variable {C P : Type} [Packet P]

/-! ## Listening -/

/-- What an event of a client tells its link. -/
def inputOf (generation : Nat) : News P → LinkInput P
  | .active => .active generation
  | .packet packet => .packet generation packet
  | .inactive | .failed => .lost generation

/-- Lets a line do what it can do, and collects what it tells its link. -/
def listen (now generation : Nat) (l : Line C P) : List (LinkInput P) × Line C P :=
  let l := l.settle now
  let (heard, client) := l.client.report
  let failure := match l.outcome with
    | some (.error _) => [.failed generation]
    | _ => []
  (failure ++ heard.flatMap fun (_, events) => events.map fun e => inputOf generation e.news,
    { l with client, outcome := none })

/-- Lets lines do what they can do, one after the other, and collects what they tell their links. -/
def listenTo (now : Nat) :
    List (LinkLine C P) → Hub P → List (Nat × LinkInput P) × List (LinkLine C P) × Hub P
  | [], hub => ([], [], hub)
  | w :: rest, hub =>
    let line := w.line
    let (told, line) := listen now w.generation { line with client := { line.client with hub } }
    let (more, rest, hub) := listenTo now rest line.client.hub
    (told.map (fun input => (w.link, input)) ++ more, { w with line } :: rest, hub)

/-- Lets all lines do what they can do, and collects what they tell their links. -/
def listenAll (b : Bridge C P) : List (Nat × LinkInput P) × Bridge C P :=
  let (inputs, lines, hub) := listenTo b.now b.lines b.hub
  (inputs, { b with lines, hub })

/-- Repeats this until the links hear nothing new, as long as there is fuel. -/
def settleFor (fuel : Nat) (b : Bridge C P) : Bridge C P :=
  match fuel with
  | 0 => b
  | fuel + 1 =>
    match b.listenAll with
    | ([], b) => b
    | (inputs, b) => settleFor fuel (inputs.foldl (fun b (link, input) => b.feed link input) b)

/-- Does everything that can be done now. A line has three things to tell at most: that its dial
failed, that its session is active, and that it was lost. -/
def settle (b : Bridge C P) : Bridge C P := settleFor (3 * b.lines.length + 4) b

/-! ## Alarms -/

/-- All alarms that are set. -/
def alarms (b : Bridge C P) : List (Alarm × BridgeAlarm) :=
  (b.links.zipIdx.filterMap fun ((_, l), i) => l.retry.map fun alarm => (alarm, .retry i)) ++
    b.lines.zipIdx.flatMap fun (w, i) =>
      w.line.alarms.map fun (alarm, what) => (alarm, .line i what)

/-- The port that a line dials. -/
def portOf (b : Bridge C P) (place : Nat) : Option UInt16 :=
  (b.lines[place]?).map fun w => w.line.client.options.port

/-- At a port there is one peer at a time, the one that answered last: all others go away. -/
def keepLatestPeer (b : Bridge C P) (place : Nat) : Bridge C P :=
  { b with lines := b.lines.zipIdx.map fun (w, i) =>
      if i ≠ place && b.portOf i = b.portOf place then { w with line := w.line.dropPeer } else w }

/-- What an alarm is for. -/
def ring (b : Bridge C P) : BridgeAlarm → Bridge C P
  | .retry link => b.feed link .retryDue
  | .line place what =>
    let answered := fun b : Bridge C P => (b.lines[place]?).any (·.line.hasPeer)
    let next := b.mapLine place (·.ring b.now what)
    if answered next && !answered b then next.keepLatestPeer place else next

/-- Lets time pass from alarm to alarm, up to a target or until it is enough. -/
def runFor (fuel : Nat) (enough : Bridge C P → Bool) (b : Bridge C P) (target : Nat) : Bridge C P :=
  match fuel with
  | 0 => { b with now := target }
  | fuel + 1 =>
    let b := b.settle
    if enough b then b
    else
      match Alarm.first? b.alarms with
      | some (alarm, what) =>
        if alarm.due ≤ target then
          runFor fuel enough (ring { b with now := max b.now alarm.due } what) target
        else { b with now := target }
      | none => { b with now := target }

/-- Enough fuel: no more than a few alarms of each link ring in a millisecond. -/
def fuel (b : Bridge C P) (millis : Nat) : Nat :=
  8 * (millis + 4) * (b.peers.entries.length + b.lines.length + 1)

/-- Lets time pass. -/
def advance (b : Bridge C P) (millis : Nat) : Bridge C P :=
  let millis := waitFor millis
  b.runFor (b.fuel millis) (fun _ => false) (b.now + millis)

/-- Waits until nobody waits for the end of a session any more. -/
def awaitCloses (b : Bridge C P) (lines : List Nat) : Bridge C P :=
  let done (b : Bridge C P) : Bool :=
    lines.all fun i => (b.lines[i]?).all fun w => w.line.closing.isNone
  (b.runFor (b.fuel b.settings.closeTimeout) done (b.now + b.settings.closeTimeout)).advance 0

end Bridge
end ShardMesh
