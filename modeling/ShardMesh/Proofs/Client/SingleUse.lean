import ShardMesh.Bridge.Peering
import ShardMesh.Proofs.Client.Life
import ShardMesh.Proofs.Session.Handling

/-!
# One session in a life

A client can be asked to connect as often as one likes; it has one session at most, and its context goes
to that one's connection. While the client says that it is connected, a packet that it accepts is a
frame in the queue of that session. A bridge sends over such a client.
-/

namespace ShardMesh

variable {C P : Type} [Packet P]

/-! ## Sending -/

/-- On an active connection, what is reported as sent was submitted. -/
theorem Connection.submits_of_send {conn : Connection C} (hactive : conn.active = true) {hub : Hub P}
    {packet : P} (hsend : (conn.send hub packet).1 = .ok ()) :
    ∃ frame, (hub.codec.encode packet).1 = .ok frame ∧
      (conn.send hub packet).2.1.transport =
        { conn.transport with queue := conn.transport.queue ++ [frame] } := by
  have hencode : (hub.encode packet).1 = (hub.codec.encode packet).1 := rfl
  unfold send at hsend ⊢
  rw [hactive, if_neg (by decide)] at hsend ⊢
  split at hsend
  · cases hsend
  · rename_i frame hub' heq
    rw [heq] at hencode
    dsimp only at hsend ⊢
    split at hsend
    · cases hsend
    · rename_i transport hsubmit
      obtain ⟨-, rfl⟩ := Transport.submit_eq_ok_iff.mp hsubmit
      exact ⟨frame, hencode.symm, rfl⟩

namespace Client

/-- A packet was sent: one frame more waits at the connection, and it is that packet's. -/
def Sent (c : Client C P) (packet : P) (c' : Client C P) : Prop :=
  ∃ conn conn' frame, c.connection = some conn ∧ c'.connection = some conn' ∧
    (c.hub.codec.encode packet).1 = .ok frame ∧
    conn'.transport = { conn.transport with queue := conn.transport.queue ++ [frame] }

/-- Nothing is reported as sent that is not in the queue of a live session. -/
theorem Sound.sent {context : C} {c : Client C P} {closeEnded : Bool} {n : Nat}
    {news : List (News P)} (h : Sound context c closeEnded n news) {packet : P}
    (hsend : (c.send packet).1 = .ok ()) : c.Sent packet (c.send packet).2 := by
  have hconnected := h.life.connected_eq
  unfold send at hsend ⊢
  split at hsend
  · rename_i conn hconnection hlives
    have hactive : conn.active = true := by
      rw [hlives] at hconnected
      have hlive := (Bool.and_eq_true_iff.mp hconnected.symm).1
      unfold active at hlive
      rwa [hconnection] at hlive
    obtain ⟨frame, hframe, htransport⟩ := Connection.submits_of_send hactive hsend
    exact ⟨conn, _, frame, hconnection, rfl, hframe, htransport⟩
  · cases hsend

end Client

/-- What a bridge reports as sent over a link was sent by the client of the line that the link
holds. -/
theorem Bridge.exists_send_of_sendOver {b : Bridge C P} {link : Nat} {packet : P}
    (h : (b.sendOver link packet).1 = true) :
    ∃ place w, (do b.lineOf? link (← (← b.links[link]?).2.sender?)) = some place ∧
      b.lines[place]? = some w ∧
      let sent := Client.send { w.line.client with hub := b.hub } packet
      sent.1 = .ok () ∧ (b.sendOver link packet).2.lines =
        b.lines.set place { w with line := { w.line with client := sent.2 } } := by
  unfold sendOver at h ⊢
  dsimp only at h ⊢
  cases hplace : (do b.lineOf? link (← (← b.links[link]?).2.sender?) : Option Nat) with
  | none =>
    rw [hplace] at h
    cases h
  | some place =>
    rw [hplace, Option.map_some] at h
    unfold withLine at h ⊢
    cases hline : b.lines[place]? with
    | none =>
      rw [hline] at h
      cases h
    | some w =>
      rw [hline] at h
      refine ⟨place, w, rfl, hline, ?_⟩
      rw [Option.map_some, hline]
      dsimp only at h ⊢
      rcases hsend : Client.send { w.line.client with hub := b.hub } packet with ⟨_ | ⟨⟩, client⟩
      · rw [hsend] at h
        cases h
      · exact ⟨rfl, rfl⟩

/-! ## Connecting and closing -/

namespace Line

/-- What can be done with a line. -/
inductive Deed (P : Type) where
  /-- Somebody connects: a dial begins, unless the client is closed. -/
  | connect (network : Network) (now : Nat)
  /-- The dial has failed, or succeeded, or is given up. -/
  | endDial (now : Nat)
  /-- At the far end whoever answered last takes the place of whoever was there before. -/
  | replacePeer
  | close (now timeout : Nat)
  /-- The end of the session is not waited for any longer, or it has come. -/
  | endClose
  | call (call : Client.Call P)

/-- The line after a deed. -/
def perform (l : Line C P) : Deed P → Line C P
  | .connect network now => (l.connect network now).1
  | .endDial now => l.endDial now
  | .replacePeer => l.keepLatestPeer
  | .close now timeout => l.close now timeout
  | .endClose => l.endClose
  | .call call => { l with client := l.client.apply call }

/-- The line after some deeds. -/
def performAll (l : Line C P) (deeds : List (Deed P)) : Line C P := deeds.foldl perform l

/-- What a deed does to the client. -/
def callsOf (l : Line C P) : Deed P → List (Client.Call P)
  | .connect .. => []
  | .endDial _ =>
    match l.dialing with
    | none => []
    | some (dial, _) => if (dial.within l.client.options.readTimeout).1.isOk then [.ready {}] else []
  | .replacePeer => []
  | .close _ timeout =>
    if l.awaited || !l.isLive || timeout = 0 then [.beginClose, .endClose] else [.beginClose]
  | .endClose => [.endClose]
  | .call call => [call]

/-- What some deeds do to the client. -/
def calls (l : Line C P) : List (Deed P) → List (Client.Call P)
  | [] => []
  | deed :: deeds => l.callsOf deed ++ (l.perform deed).calls deeds

omit [Packet P] in
/-- To connect begins a dial or fails; nothing else changes. -/
theorem connect_eq (l : Line C P) (network : Network) (now : Nat) :
    ∃ dialing outcome, (l.connect network now).1 = { l with dialing, outcome } := by
  unfold connect
  split
  · exact ⟨l.dialing, some (.error .connectionClosed), rfl⟩
  · exact ⟨some (_, now), l.outcome, rfl⟩

omit [Packet P] in
theorem client_keepLatestPeer (l : Line C P) : l.keepLatestPeer.client = l.client := by
  unfold keepLatestPeer
  split
  · rfl
  · split <;> rfl

/-- The client's part in the beginning of a session. -/
theorem client_beginSession (l : Line C P) (pipe : Pipe) (now : Nat) :
    (l.beginSession pipe now).client = (l.client.onReady {}).2 := by
  have hready : SessionHandler.onReady (SessionHandler.atTime l.client now) {} = l.client.onReady {} :=
    rfl
  unfold beginSession Exchange.begin Session.start
  rw [hready]
  rcases l.client.onReady {} with ⟨⟨e, transport⟩ | seat, client⟩ <;> rfl

/-- A session that the client refuses is over at once, and nothing else changes. -/
theorem beginSession_cases (l : Line C P) (pipe : Pipe) (now : Nat) :
    (l.beginSession pipe now).outcome = some (.ok ()) ∨
      ∃ refused e, refused.session.phase = .over ∧ l.beginSession pipe now =
        { l with exchanges := refused :: l.exchanges, outcome := some (.error e) } := by
  have hready : SessionHandler.onReady (SessionHandler.atTime l.client now) {} = l.client.onReady {} :=
    rfl
  have hsame : (∃ e, (l.client.onReady {}).1 = .error e) → (l.client.onReady {}).2 = l.client := by
    rintro ⟨e, hrefused⟩
    rcases l.client.onReady_cases {} with ⟨context, -, -, hresult, -⟩ | ⟨-, -, hsame⟩
    · rw [hresult] at hrefused
      cases hrefused
    · exact hsame
  unfold beginSession Exchange.begin Session.start
  rw [hready]
  rcases hresult : l.client.onReady {} with ⟨⟨e, transport⟩ | seat, client⟩
  · rw [hresult] at hsame
    obtain rfl : client = l.client := hsame ⟨_, rfl⟩
    exact .inr ⟨_, _, rfl, rfl⟩
  · exact .inl rfl

/-- What a dial that ends does to the client. -/
theorem client_endDial (l : Line C P) (now : Nat) :
    (l.endDial now).client = l.client.after (l.callsOf (.endDial now)) := by
  unfold callsOf endDial
  cases l.dialing with
  | none => rfl
  | some dialing =>
    obtain ⟨dial, began⟩ := dialing
    dsimp only
    cases (dial.within l.client.options.readTimeout).1 with
    | error e => rfl
    | ok pipe => exact client_beginSession { l with dialing := none } pipe now

/-- Who connects in vain leaves everything as it was, the session that there is included; of a dial
    that led to a stream there is left a session that is over. -/
theorem endDial_of_error (l : Line C P) {now : Nat} {e : ProtocolError}
    (h : (l.endDial now).outcome = some (.error e)) :
    ∃ refused, (∀ x ∈ refused, x.session.phase = .over) ∧ l.endDial now =
      { l with dialing := none, outcome := some (.error e), exchanges := refused ++ l.exchanges } := by
  cases hdialing : l.dialing with
  | none =>
    have hnothing : l.endDial now = l := by
      unfold endDial
      rw [hdialing]
    rw [hnothing] at h ⊢
    exact ⟨[], nofun, by rw [← hdialing, ← h]; rfl⟩
  | some dialing =>
    obtain ⟨dial, began⟩ := dialing
    cases hpipe : (dial.within l.client.options.readTimeout).1 with
    | error e' =>
      have hfails : l.endDial now = { l with dialing := none, outcome := some (.error e') } := by
        simp only [endDial, hdialing, hpipe]
      rw [hfails] at h ⊢
      cases h
      exact ⟨[], nofun, rfl⟩
    | ok pipe =>
      have hbegins : l.endDial now = beginSession { l with dialing := none } pipe now := by
        simp only [endDial, hdialing, hpipe]
      rw [hbegins] at h ⊢
      rcases beginSession_cases { l with dialing := none } pipe now with
        hbegun | ⟨refused, e', hover, hrefused⟩
      · rw [hbegun] at h
        cases h
      · rw [hrefused] at h ⊢
        cases h
        exact ⟨[refused], fun x hx => List.mem_singleton.mp hx ▸ hover, rfl⟩

theorem client_close (l : Line C P) (now timeout : Nat) :
    (l.close now timeout).client = l.client.after (l.callsOf (.close now timeout)) := by
  have hlive : isLive { l with client := l.client.beginClose, probing := none } = l.isLive := rfl
  unfold close callsOf
  dsimp only
  rw [hlive]
  by_cases hnobody : (l.awaited || !l.isLive) = true
  · rw [if_pos hnobody, if_pos (by rw [hnobody]; rfl)]
    rfl
  · have hsomebody : (l.awaited || !l.isLive) = false := Bool.eq_false_iff.mpr hnobody
    rw [hsomebody]
    by_cases htimeout : timeout = 0
    · subst htimeout
      rfl
    · rw [if_neg (by decide), if_neg htimeout, if_neg (by simpa using htimeout)]
      rfl

/-- What a deed does to the client are calls. -/
theorem client_perform (l : Line C P) (deed : Deed P) :
    (l.perform deed).client = l.client.after (l.callsOf deed) := by
  cases deed with
  | connect network now =>
    obtain ⟨dialing, outcome, hconnect⟩ := l.connect_eq network now
    show (l.connect network now).1.client = _
    rw [hconnect]
    rfl
  | endDial now => exact l.client_endDial now
  | replacePeer => exact l.client_keepLatestPeer
  | close now timeout => exact l.client_close now timeout
  | endClose => rfl
  | call call => rfl

theorem client_performAll (l : Line C P) (deeds : List (Deed P)) :
    (l.performAll deeds).client = l.client.after (l.calls deeds) := by
  induction deeds generalizing l with
  | nil => rfl
  | cons deed deeds ih =>
    show ((l.perform deed).performAll deeds).client = _
    rw [ih, client_perform, calls]
    exact List.foldl_append.symm

/-! ## One session -/

/-- Whatever is done with the line of a new client, in whatever order and however often, the client has
one session at most, and the context that it was made with is that of its connection. Who connects or
begins a session in vain leaves everything as it was, which is so for everybody after the first session
and after a close has begun: the client does not change, nor does any exchange that there is, nor what
is waited for; at most a session is left behind that is over and never began. Listeners hear at most
once that the client is active, and then of packets and of one end at most. The client says that it is
connected exactly as long as its connection is active and no close has ended. And what is reported as
sent, by the client or by a bridge over it, is one frame more in the queue of the session. -/
theorem single_use {options : ClientOptions} {hub : Hub P} {given : C} {clock : UInt64}
    {l₀ : Line C P} (hnew : l₀.client = Client.new options hub given clock) {deeds : List (Deed P)}
    (horderly : l₀.client.Orderly (l₀.calls deeds)) :
    let calls := l₀.calls deeds
    let l := l₀.performAll deeds
    let c := l.client
    let sessions := l₀.client.sessions calls
    let run := ({} : DispatcherRun P).steps (l₀.client.steps calls)
    (sessions ≤ 1 ∧ (sessions = 1 ↔ ∃ conn, c.connection = some conn) ∧
      ∀ conn, c.connection = some conn → conn.context = given) ∧
    ((∀ network now, (∃ dialing outcome, (l.connect network now).1 = { l with dialing, outcome }) ∧
        (calls.any (·.beginsClose) = true → l.connect network now =
          ({ l with outcome := some (.error .connectionClosed) }, network))) ∧
      (∀ now e, (l.endDial now).outcome = some (.error e) →
        ∃ refused, (∀ x ∈ refused, x.session.phase = .over) ∧ l.endDial now = { l with
          dialing := none
          outcome := some (.error e)
          exchanges := refused ++ l.exchanges }) ∧
      ∀ transport,
        ((∃ e, (c.onReady transport).1 = .error e) ↔
          sessions = 1 ∨ calls.any (·.beginsClose) = true) ∧
        ∀ e, (c.onReady transport).1 = .error e → (c.onReady transport).2 = c) ∧
    ((sessions = 0 → l₀.client.told calls = []) ∧
      (sessions = 1 → ∃ (packets : List P) (ends : List (News P)),
        l₀.client.told calls = .active :: (packets.map .packet ++ ends) ∧ ends.length ≤ 1 ∧
          ∀ e ∈ ends, e = .inactive ∨ e = .failed) ∧
      run.dispatcher = c.dispatcher ∧
      ((∀ step, Client.Call.listen step ∈ calls → step.usable = true) → ∀ number,
        ((Happening.calledBy number run.journal).map (·.news)).Sublist (l₀.client.told calls))) ∧
    (c.connected = true ↔
      (∃ conn, c.connection = some conn ∧ conn.active = true) ∧ calls.any (·.endsClose) = false) ∧
    (∀ packet, (c.send packet).1 = .ok () → c.Sent packet (c.send packet).2) ∧
    ∀ (b : Bridge C P) (link : Nat) (packet : P), (b.sendOver link packet).1 = true →
      ∃ place w client, (do b.lineOf? link (← (← b.links[link]?).2.sender?)) = some place ∧
        b.lines[place]? = some w ∧
        (b.sendOver link packet).2.lines =
          b.lines.set place { w with line := { w.line with client } } ∧
        (w.line.client = c → Client.Sent { c with hub := b.hub } packet client) := by
  intro calls l c sessions run
  have hclient : c = l₀.client.after calls := l₀.client_performAll deeds
  have hsound : Client.Sound given c (calls.any (·.endsClose)) sessions (l₀.client.told calls) := by
    have hstart := Client.sound_new options hub given clock
    rw [← hnew] at hstart
    have hafter := hstart.after horderly
    rwa [Bool.false_or, Nat.zero_add, List.nil_append, ← hclient] at hafter
  have hclosed : c.closed = calls.any (·.beginsClose) := by
    rw [hclient, Client.closed_after, hnew]
    rfl
  obtain ⟨hconnection, hgiven⟩ := hsound.life.connection
  obtain ⟨hsilent, hheard⟩ := hsound.life.heard
  refine ⟨⟨hsound.life.sessions_le, hconnection, hgiven⟩, ⟨fun network now => ⟨?_, fun hbegun => ?_⟩,
    fun now e => l.endDial_of_error, fun transport => ⟨?_, fun e hrefused => ?_⟩⟩,
    ⟨hsilent, hheard, ?_, fun husable number => ?_⟩, ?_, fun packet => hsound.sent,
    fun b link packet hsent => ?_⟩
  · exact l.connect_eq network now
  · unfold connect
    rw [if_pos (hclosed.trans hbegun)]
  · rw [← hclosed]
    exact hsound.life.refuses_iff transport
  · rcases c.onReady_cases transport with ⟨context, -, -, hresult, -⟩ | ⟨-, -, hsame⟩
    · rw [hresult] at hrefused
      cases hrefused
    · exact hsame
  · rw [hclient]
    refine l₀.client.dispatcher_after calls {} ?_
    rw [hnew]
    rfl
  · rw [← Client.events_steps horderly]
    have hsteps : ∀ step ∈ l₀.client.steps calls, step.usable = true := fun step =>
      Client.usable_of_mem_steps husable
    exact (DispatcherRun.sound_start.called_sublist hsteps (Nat.zero_le number)).map _
  · rw [hsound.life.connected_eq, Bool.and_eq_true, Bool.not_eq_true']
    refine and_congr_left fun _ => ?_
    unfold Client.active
    exact Option.any_eq_true ..
  · obtain ⟨place, w, hplace, hw, hok, hlines⟩ := Bridge.exists_send_of_sendOver hsent
    refine ⟨place, w, _, hplace, hw, hlines, fun hsame => ?_⟩
    rw [hsame] at hok ⊢
    have hshared : Client.Sound given { c with hub := b.hub } (calls.any (·.endsClose)) sessions
        (l₀.client.told calls) := hsound.keeps ⟨rfl, rfl, rfl, id⟩
    exact hshared.sent hok

/-- A client that is connected, hears a probe, loses its session, and then is closed. -/
theorem single_use_of_lost :
    let hub : Hub Ping := { codec := Codec.withScratchSize (.ofRegistry ⟨[⟨0⟩]⟩) 64 }
    let l₀ : Line Nat Ping := { client := Client.new (.ofAddress "peer" 7000) hub 5 0 }
    let network : Network := { plans := Dict.ofList [(7000, [.answer, .answer])] }
    let probe : Bytes := [0, 8, 0, 0, 0, 0, 0, 0, 0, 0, 7]
    let deeds : List (Deed Ping) :=
      [.call (.listen (.add "monitor" (.always .completed))), .connect network 0, .endDial 0,
        .call (.frame probe), .connect network 1, .endDial 1, .call (.send ⟨9⟩), .call .writeError,
        .call (.frame probe), .call (.closed .closed), .close 2 0]
    let l := l₀.performAll deeds
    l₀.client.Orderly (l₀.calls deeds) ∧
      l₀.client.told (l₀.calls deeds) = [.active, .packet ⟨7⟩, .failed] ∧
      (∃ conn, l.client.connection = some conn ∧ conn.context = 5) ∧ l.client.connected = false ∧
      ∀ transport, ∃ e, (l.client.onReady transport).1 = .error e := by
  intro hub l₀ network probe deeds l
  have horderly : l₀.client.Orderly (l₀.calls deeds) := by decide +kernel
  have htold : l₀.client.told (l₀.calls deeds) = [.active, .packet ⟨7⟩, .failed] := by decide +kernel
  have hsessions : l₀.client.sessions (l₀.calls deeds) = 1 := by decide +kernel
  have hended : (l₀.calls deeds).any (·.endsClose) = true := by decide +kernel
  -- which deeds these were does not matter any more
  clear_value deeds
  obtain ⟨⟨-, hconnection, hgiven⟩, ⟨-, -, hrefused⟩, -, hconnected, -⟩ :=
    single_use rfl horderly
  obtain ⟨conn, hconn⟩ := hconnection.mp hsessions
  refine ⟨horderly, htold, ⟨conn, hconn, hgiven conn hconn⟩, ?_, fun transport => ?_⟩
  · rw [hended] at hconnected
    exact Bool.eq_false_iff.mpr fun hstill => nomatch (hconnected.mp hstill).2
  · exact (hrefused transport).1.mpr (.inl hsessions)

end Line

end ShardMesh
