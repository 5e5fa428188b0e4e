import ShardMesh.Proofs.Connection

/-!
# The account of a connection

Calls come to a connection in any order, and its session takes frames out of the queue or goes away in
between. What every call did is written down (`Connection.Entry`). The counters are the sum of what is
written down, and so are the frames: each call balances, and balances add up (`Balance.trans`).
-/

namespace ShardMesh

variable {C P : Type} [Packet P]

namespace Connection

/-! ## Calls -/

/-- What is called on a connection, and what its session does with the frames that wait. -/
inductive Call (P : Type) where
  | assignId (id : ConnectionId)
  | send (packet : P)
  | receive (frame : Bytes)
  | markInactive
  | close
  /-- The session takes out what waits. -/
  | drain
  /-- The session is gone, and what waits is lost. -/
  | abandon
  deriving Repr, DecidableEq

namespace Call

/-- The bytes that arrive. -/
def arriving? : Call P → Option Bytes
  | .receive frame => some frame
  | _ => none

/-- The id that is to be given. -/
def id? : Call P → Option ConnectionId
  | .assignId id => some id
  | _ => none

/-- Whether the transport is to be closed. -/
def closes : Call P → Bool
  | .close => true
  | _ => false

end Call

/-- What a call answers. -/
inductive Answer (P : Type) where
  | assigned (result : Except ProtocolError Unit)
  | sent (result : Except ProtocolError Unit)
  | received (packet : Option P)
  | marked (won : Bool)
  | drained (frames : Option (List Bytes))
  | done
  deriving Repr

/-- Makes a call. -/
def call (c : Connection C) (hub : Hub P) : Call P → Answer P × Connection C × Hub P
  | .assignId id =>
    match c.assignId id with
    | .ok c => (.assigned (.ok ()), c, hub)
    | .error e => (.assigned (.error e), c, hub)
  | .send packet =>
    let (result, c, hub) := c.send hub packet
    (.sent result, c, hub)
  | .receive frame =>
    let (packet, c, hub) := c.receive hub frame
    (.received packet, c, hub)
  | .markInactive =>
    let (won, c) := c.markInactive
    (.marked won, c, hub)
  | .close => (.done, c.close, hub)
  | .drain =>
    let (frames, c) := c.drain
    (.drained frames, c, hub)
  | .abandon => (.done, c.abandon, hub)

/-- What is written down about a call. -/
structure Entry (C P : Type) where
  call : Call P
  /-- The connection and the hub that the call found. -/
  connection : Connection C
  hub : Hub P
  answer : Answer P

namespace Entry

/-- What the codec made of a packet that was sent with success while the connection was active. -/
def encoded? (e : Entry C P) : Option (Except ProtocolError Bytes) :=
  match e.call, e.answer with
  | .send packet, .sent (.ok ()) =>
    if e.connection.active then some (e.hub.codec.encode packet).1 else none
  | _, _ => none

/-- The bytes that arrived. -/
def arrived? (e : Entry C P) : Option Bytes := e.call.arriving?

/-- The packet that was read. -/
def read? (e : Entry C P) : Option P :=
  match e.answer with
  | .received packet => packet
  | _ => none

/-- What was answered to a call that makes the connection inactive. -/
def won? (e : Entry C P) : Option Bool :=
  match e.answer with
  | .marked won => some won
  | _ => none

/-- The frames that left the queue. -/
def left (e : Entry C P) : List Bytes :=
  match e.call, e.answer with
  | .drain, .drained frames => frames.getD []
  | .abandon, _ => e.connection.transport.queue
  | _, _ => []

end Entry

/-- Makes calls one after the other: what is written down, the connection and the hub. -/
def run (c : Connection C) (hub : Hub P) : List (Call P) → List (Entry C P) × Connection C × Hub P
  | [] => ([], c, hub)
  | made :: calls =>
    let (answer, c', hub') := c.call hub made
    let (entries, last) := run c' hub' calls
    (⟨made, c, hub, answer⟩ :: entries, last)

/-- The entry of a call. -/
def entry (c : Connection C) (hub : Hub P) (made : Call P) : Entry C P :=
  ⟨made, c, hub, (c.call hub made).1⟩

theorem run_cons (c : Connection C) (hub : Hub P) (made : Call P) (calls : List (Call P)) :
    c.run hub (made :: calls) =
      (c.entry hub made :: ((c.call hub made).2.1.run (c.call hub made).2.2 calls).1,
        ((c.call hub made).2.1.run (c.call hub made).2.2 calls).2) := rfl

/-! ## Single calls -/

/-- An active connection that is closed answers so to every packet that it can encode. -/
theorem send_of_closed {c : Connection C} (hactive : c.active = true)
    (hclosed : c.transport.closed = true) {hub : Hub P} {packet : P} {frame : Bytes}
    (h : (hub.codec.encode packet).1 = .ok frame) :
    (c.send hub packet).1 = .error .connectionClosed := by
  have hsubmit : c.transport.submit frame = .error .connectionClosed := if_pos hclosed
  unfold send
  rw [hactive, Hub.encode_eq h]
  dsimp only
  rw [hsubmit]
  rfl

theorem send_of_inactive {c : Connection C} (h : c.active = false) (hub : Hub P) (packet : P) :
    c.send hub packet = (.ok (), c, hub) := by
  unfold send
  rw [h]
  rfl

/-- A send that fails leaves the connection as it is. -/
theorem send_unchanged {c : Connection C} {hub : Hub P} {packet : P} {e : ProtocolError}
    (h : (c.send hub packet).1 = .error e) : (c.send hub packet).2.1 = c := by
  cases hactive : c.active with
  | false => rw [send_of_inactive hactive]
  | true =>
    rcases (send_cases hactive hub packet).1 with ⟨frame, -, hok, -⟩ | ⟨-, hsame⟩
    · rw [hok] at h
      cases h
    · exact hsame

/-- What arrives is counted with its bytes, and with one packet if there is one in it. -/
theorem receive_eq (c : Connection C) (hub : Hub P) (frame : Bytes) :
    (c.receive hub frame).2.1 =
      c.traded frame.length (hub.packetOf frame).toList.length [] := by
  rw [hub.packetOf_eq]
  cases hread : hub.codec.tryDecode frame with
  | error e => rw [receive_of_refused hread]; rfl
  | ok found =>
    cases found with
    | none => rw [receive_of_none hread]; rfl
    | some packet => rw [receive_of_read hread]; rfl

/-! ## Balances -/

/-- What is written down about some calls balances with the frames that were added to the queue:
    they are the encodings of the packets that were sent, what left the queue was in it, and the
    counters have grown by what was sent and by what arrived. -/
structure Balance (c : Connection C) (entries : List (Entry C P)) (frames : List Bytes)
    (c' : Connection C) : Prop where
  encoded : entries.filterMap Entry.encoded? = frames.map .ok
  queue : c.transport.queue ++ frames = entries.flatMap Entry.left ++ c'.transport.queue
  traffic : c'.traffic =
    (c.traded (entries.filterMap Entry.arrived?).flatten.length
      (entries.filterMap Entry.read?).length frames).traffic

theorem Balance.refl (c : Connection C) : Balance (P := P) c [] [] c := by
  refine ⟨rfl, List.append_nil _, ?_⟩
  simp [traded]

theorem Balance.trans {a b c : Connection C} {entries more : List (Entry C P)}
    {frames frames' : List Bytes} (h : Balance a entries frames b)
    (h' : Balance b more frames' c) : Balance a (entries ++ more) (frames ++ frames') c := by
  refine ⟨?_, ?_, ?_⟩
  · rw [List.filterMap_append, h.encoded, h'.encoded, List.map_append]
  · rw [← List.append_assoc, h.queue, List.append_assoc, h'.queue, List.flatMap_append,
      List.append_assoc]
  · rw [h'.traffic, List.filterMap_append, List.filterMap_append, List.flatten_append,
      List.length_append, List.length_append, ← traded_traded]
    simp only [traded, h.traffic]

/-- A call that neither sends nor receives and leaves the counters as they are. -/
theorem Balance.of_queue {c c' : Connection C} {e : Entry C P} (hencoded : e.encoded? = none)
    (harrived : e.arrived? = none) (hread : e.read? = none)
    (hqueue : c.transport.queue = e.left ++ c'.transport.queue) (htraffic : c'.traffic = c.traffic) :
    Balance c [e] [] c' := by
  refine ⟨?_, ?_, ?_⟩
  · rw [List.filterMap_cons_none hencoded]
    rfl
  · rw [List.append_nil, List.flatMap_singleton, hqueue]
  · rw [List.filterMap_cons_none harrived, List.filterMap_cons_none hread, htraffic]
    simp [traded]

/-- A send adds the encoding of its packet, or nothing. -/
theorem balance_send (c : Connection C) (hub : Hub P) (packet : P) :
    ∃ frames, Balance c [c.entry hub (.send packet)] frames (c.send hub packet).2.1 := by
  cases hactive : c.active with
  | false =>
    have hencoded : (c.entry hub (.send packet)).encoded? = none := by
      simp only [Entry.encoded?, entry, call, send_of_inactive hactive, hactive, Bool.false_eq_true,
        if_false]
    rw [send_of_inactive hactive]
    exact ⟨[], .of_queue hencoded rfl rfl rfl rfl⟩
  | true =>
    rcases (send_cases hactive hub packet).1 with
      ⟨frame, hframe, hok, hafter⟩ | ⟨⟨e, herror⟩, hsame⟩
    · have hencoded : (c.entry hub (.send packet)).encoded? = some (.ok frame) := by
        simp only [Entry.encoded?, entry, call, hok, hactive, if_true]
        exact congrArg some hframe
      refine ⟨[frame], ?_, ?_, ?_⟩
      · rw [List.filterMap_cons_some hencoded]
        rfl
      · rw [hafter]
        rfl
      · rw [hafter]
        rfl
    · have hencoded : (c.entry hub (.send packet)).encoded? = none := by
        simp only [Entry.encoded?, entry, call, herror]
      rw [hsame]
      exact ⟨[], .of_queue hencoded rfl rfl rfl rfl⟩

theorem balance_receive (c : Connection C) (hub : Hub P) (frame : Bytes) :
    Balance c [c.entry hub (.receive frame)] [] (c.receive hub frame).2.1 := by
  have hread : (c.entry hub (.receive frame)).read? = hub.packetOf frame := receive_fst c hub frame
  have hreads : [c.entry hub (.receive frame)].filterMap Entry.read? =
      (hub.packetOf frame).toList := by
    rw [← hread]
    cases h : (c.entry hub (.receive frame)).read? with
    | none => rw [List.filterMap_cons_none h]; rfl
    | some packet => rw [List.filterMap_cons_some h]; rfl
  have harrived : [c.entry hub (.receive frame)].filterMap Entry.arrived? = [frame] := rfl
  rw [receive_eq]
  refine ⟨rfl, rfl, ?_⟩
  rw [hreads, harrived, List.flatten_singleton]

/-- An id is given if there is none. -/
theorem call_assignId (c : Connection C) (hub : Hub P) (id : ConnectionId) :
    ∃ result, c.call hub (.assignId id) =
      (.assigned result, { c with id := c.id.or (some id) }, hub) := by
  obtain ⟨known, active, context, transport, traffic⟩ := c
  cases known with
  | none => exact ⟨.ok (), rfl⟩
  | some known => exact ⟨.error (.custom "Connection id already assigned"), rfl⟩

/-- What a session takes out was in the queue. -/
theorem call_drain (c : Connection C) (hub : Hub P) :
    ∃ frames queue, c.call hub .drain =
        (.drained frames, { c with transport := { c.transport with queue } }, hub) ∧
      c.transport.queue = frames.getD [] ++ queue := by
  cases h : c.transport.abandoned with
  | true =>
    have hdrain : c.drain = (none, c) := if_pos h
    refine ⟨none, c.transport.queue, ?_, rfl⟩
    rw [call, hdrain]
  | false =>
    have hdrain : c.drain =
        (some c.transport.queue, { c with transport := { c.transport with queue := [] } }) := by
      unfold drain
      rw [h]
      rfl
    refine ⟨some c.transport.queue, [], ?_, (List.append_nil _).symm⟩
    rw [call, hdrain]

/-- Every call balances. -/
theorem balance_call (c : Connection C) (hub : Hub P) (made : Call P) :
    ∃ frames, Balance c [c.entry hub made] frames (c.call hub made).2.1 := by
  cases made with
  | assignId id =>
    obtain ⟨result, hcall⟩ := c.call_assignId hub id
    have hread : (c.entry hub (.assignId id)).read? = none := by
      simp only [Entry.read?, entry, hcall]
    rw [hcall]
    exact ⟨[], .of_queue rfl rfl hread rfl rfl⟩
  | send packet => exact balance_send c hub packet
  | receive frame => exact ⟨[], balance_receive c hub frame⟩
  | markInactive => exact ⟨[], .of_queue rfl rfl rfl rfl rfl⟩
  | close => exact ⟨[], .of_queue rfl rfl rfl rfl rfl⟩
  | drain =>
    obtain ⟨frames, queue, hcall, hqueue⟩ := c.call_drain hub
    have hread : (c.entry hub .drain).read? = none := by simp only [Entry.read?, entry, hcall]
    have hleft : (c.entry hub .drain).left = frames.getD [] := by
      simp only [Entry.left, entry, hcall]
    rw [hcall]
    exact ⟨[], .of_queue rfl rfl hread (by rw [hleft, hqueue]) rfl⟩
  | abandon => exact ⟨[], .of_queue rfl rfl rfl (List.append_nil _).symm rfl⟩

/-- Any calls balance. -/
theorem balance_run (c : Connection C) (hub : Hub P) (calls : List (Call P)) :
    ∃ frames, Balance c (c.run hub calls).1 frames (c.run hub calls).2.1 := by
  induction calls generalizing c hub with
  | nil => exact ⟨[], .refl c⟩
  | cons made calls ih =>
    obtain ⟨first, hfirst⟩ := c.balance_call hub made
    obtain ⟨more, hmore⟩ := ih (c.call hub made).2.1 (c.call hub made).2.2
    exact ⟨first ++ more, hfirst.trans hmore⟩

/-! ## The life of a connection -/

theorem calls_run (c : Connection C) (hub : Hub P) (calls : List (Call P)) :
    (c.run hub calls).1.map Entry.call = calls := by
  induction calls generalizing c hub with
  | nil => rfl
  | cons made calls ih => exact congrArg (made :: ·) (ih _ _)

/-- What a call does to the life of a connection. -/
structure Course (c : Connection C) (e : Entry C P) (c' : Connection C) : Prop where
  id : c'.id = c.id.or e.call.id?
  active : c'.active = (c.active && e.won?.isNone)
  won : ∀ won, e.won? = some won → won = c.active
  closed : c'.transport.closed = (c.transport.closed || e.call.closes)

omit [Packet P] in
/-- A call that says nothing about the life of the connection. -/
theorem Course.of_same {c c' : Connection C} {e : Entry C P} (halike : c.Alike c')
    (hclosed : c'.transport.closed = c.transport.closed) (hid : e.call.id? = none)
    (hwon : e.won? = none) (hcloses : e.call.closes = false) : Course c e c' := by
  refine ⟨?_, ?_, ?_, ?_⟩
  · rw [halike.1, hid, Option.or_none]
  · rw [halike.2, hwon]
    exact (Bool.and_true _).symm
  · intro won h
    rw [hwon] at h
    cases h
  · rw [hclosed, hcloses, Bool.or_false]

theorem course_call (c : Connection C) (hub : Hub P) (made : Call P) :
    Course c (c.entry hub made) (c.call hub made).2.1 := by
  cases made with
  | assignId id =>
    obtain ⟨result, hcall⟩ := c.call_assignId hub id
    have hwon : (c.entry hub (.assignId id)).won? = none := by simp only [Entry.won?, entry, hcall]
    refine ⟨?_, ?_, ?_, ?_⟩
    · rw [hcall]
      rfl
    · rw [hcall, hwon]
      exact (Bool.and_true _).symm
    · intro won h
      rw [hwon] at h
      cases h
    · rw [hcall]
      exact (Bool.or_false _).symm
  | send packet =>
    refine .of_same (c.alike_send hub packet).1 ?_ rfl rfl rfl
    cases hactive : c.active with
    | false => rw [call, send_of_inactive hactive]
    | true =>
      rcases (send_cases hactive hub packet).1 with ⟨frame, -, -, hafter⟩ | ⟨-, hsame⟩
      · exact congrArg (·.transport.closed) hafter
      · exact congrArg (·.transport.closed) hsame
  | receive frame =>
    exact .of_same (c.alike_receive hub frame).1
      (congrArg (·.transport.closed) (c.receive_eq hub frame)) rfl rfl rfl
  | markInactive =>
    refine ⟨(Option.or_none ..).symm, (Bool.and_false _).symm, ?_, (Bool.or_false _).symm⟩
    intro won h
    exact (Option.some.inj h).symm
  | close =>
    refine ⟨(Option.or_none ..).symm, (Bool.and_true _).symm, ?_, (Bool.or_true _).symm⟩
    intro won h
    cases h
  | drain =>
    obtain ⟨frames, queue, hcall, -⟩ := c.call_drain hub
    have hwon : (c.entry hub .drain).won? = none := by simp only [Entry.won?, entry, hcall]
    rw [hcall]
    exact .of_same ⟨rfl, rfl⟩ rfl rfl hwon rfl
  | abandon => exact .of_same ⟨rfl, rfl⟩ rfl rfl rfl rfl

/-- The first id that is given stays. -/
theorem id_run (c : Connection C) (hub : Hub P) (calls : List (Call P)) :
    (c.run hub calls).2.1.id = c.id.or (calls.filterMap Call.id?).head? := by
  induction calls generalizing c hub with
  | nil => exact (Option.or_none ..).symm
  | cons made calls ih =>
    have hstep := (c.course_call hub made).id
    rw [run_cons, ih, hstep, Option.or_assoc]
    cases h : made.id? with
    | none =>
      rw [List.filterMap_cons_none h]
      simp only [entry, h, Option.none_or]
    | some id =>
      rw [List.filterMap_cons_some h]
      simp only [entry, h, List.head?_cons, Option.some_or]

/-- The connection is active until it is made inactive. -/
theorem active_run (c : Connection C) (hub : Hub P) (calls : List (Call P)) :
    (c.run hub calls).2.1.active =
      (c.active && ((c.run hub calls).1.filterMap Entry.won?).isEmpty) := by
  induction calls generalizing c hub with
  | nil => exact (Bool.and_true _).symm
  | cons made calls ih =>
    have hstep := (c.course_call hub made).active
    rw [run_cons, ih, hstep]
    dsimp only
    cases h : (c.entry hub made).won? with
    | none => rw [List.filterMap_cons_none h, Option.isNone_none, Bool.and_true]
    | some won => rw [List.filterMap_cons_some h]; simp

/-- Whoever asks first makes the connection inactive, if it was active. -/
theorem won_run (c : Connection C) (hub : Hub P) (calls : List (Call P)) {won : Bool}
    {later : List Bool} (h : (c.run hub calls).1.filterMap Entry.won? = won :: later) :
    won = c.active ∧ ∀ w ∈ later, w = false := by
  induction calls generalizing c hub won later with
  | nil => cases h
  | cons made calls ih =>
    have hstep := c.course_call hub made
    rw [run_cons] at h
    cases hfirst : (c.entry hub made).won? with
    | none =>
      rw [List.filterMap_cons_none hfirst] at h
      have hactive := hstep.active
      rw [hfirst, Option.isNone_none, Bool.and_true] at hactive
      rw [← hactive]
      exact ih _ _ h
    | some first =>
      rw [List.filterMap_cons_some hfirst] at h
      obtain ⟨rfl, hlater⟩ := List.cons.inj h
      -- nobody can win any more
      have hinactive := hstep.active
      rw [hfirst, Option.isNone_some, Bool.and_false] at hinactive
      refine ⟨hstep.won _ hfirst, fun w hw => ?_⟩
      cases later with
      | nil => cases hw
      | cons second later =>
        obtain ⟨hsecond, hmore⟩ := ih _ _ hlater
        rcases List.mem_cons.mp hw with rfl | hw
        · exact hsecond.trans hinactive
        · exact hmore w hw

theorem closed_run (c : Connection C) (hub : Hub P) (calls : List (Call P)) :
    (c.run hub calls).2.1.transport.closed = (c.transport.closed || calls.any Call.closes) := by
  induction calls generalizing c hub with
  | nil => exact (Bool.or_false _).symm
  | cons made calls ih =>
    have hstep := (c.course_call hub made).closed
    rw [run_cons, ih, hstep, List.any_cons, Bool.or_assoc]
    rfl

/-- Frames are read as before, whatever is called. -/
theorem alike_call (c : Connection C) (hub : Hub P) (made : Call P) :
    hub.Alike (c.call hub made).2.2 := by
  cases made with
  | assignId id =>
    obtain ⟨result, hcall⟩ := c.call_assignId hub id
    rw [hcall]
    exact .refl hub
  | send packet => exact (c.alike_send hub packet).2
  | receive frame => exact (c.alike_receive hub frame).2
  | markInactive => exact .refl hub
  | close => exact .refl hub
  | drain => exact .refl hub
  | abandon => exact .refl hub

/-- What is read in a call is the packet of what arrives in it. -/
theorem read_entry (c : Connection C) (hub : Hub P) (made : Call P) :
    (c.entry hub made).read? = made.arriving?.bind hub.packetOf := by
  cases made with
  | assignId id =>
    obtain ⟨result, hcall⟩ := c.call_assignId hub id
    simp only [Entry.read?, entry, hcall]
    rfl
  | receive frame => exact receive_fst c hub frame
  | drain =>
    obtain ⟨frames, queue, hcall, -⟩ := c.call_drain hub
    simp only [Entry.read?, entry, hcall]
    rfl
  | send packet => rfl
  | markInactive => rfl
  | close => rfl
  | abandon => rfl

/-- The packets that were read are those of the bytes that arrived. -/
theorem read_run (c : Connection C) (hub : Hub P) (calls : List (Call P)) :
    (c.run hub calls).1.filterMap Entry.read? =
      (calls.filterMap Call.arriving?).filterMap hub.packetOf := by
  induction calls generalizing c hub with
  | nil => rfl
  | cons made calls ih =>
    have hread := c.read_entry hub made
    -- the calls before may have changed the hub, but not how it reads frames
    have hlater : (c.call hub made).2.2.packetOf = hub.packetOf :=
      funext (c.alike_call hub made).packetOf
    have hmore := ih (c.call hub made).2.1 (c.call hub made).2.2
    rw [hlater] at hmore
    rw [run_cons, List.filterMap_cons, List.filterMap_cons, hread, hmore]
    cases made.arriving? with
    | none => rfl
    | some frame => rw [Option.bind_some, List.filterMap_cons]

/-! ## The account -/

/-- The counters of a connection are what went through its queue and what arrived.

A new connection is called in any way, while its session takes frames out of the queue or goes away.
The frames that the connection added to the queue are the encodings of the packets that it sent with
success while it was active, in order, and they have left the queue or wait in it. The counters say
how many these are and how long they are together, how long all that arrived is together, and how many
packets were read of it. Whoever first makes the connection inactive is told so, and nobody later; the
connection is active as long as nobody did. Its id is the first one that was given.

A packet that is sent next changes neither the queue nor the counters if it is refused or the
connection is inactive. When the connection was closed and is active, every packet that can be encoded
is refused because of that. Whatever is called next, an inactive connection stays so, and an id stays
the same. -/
theorem accounts_for_frames (context : C) (transport : Transport) (hub : Hub P)
    (calls : List (Call P)) :
    let (entries, c, hub') := run { context, transport } hub calls
    let arrived := calls.filterMap Call.arriving?
    let wins := entries.filterMap Entry.won?
    entries.map Entry.call = calls ∧
    (∃ frames, entries.filterMap Entry.encoded? = frames.map .ok ∧
      transport.queue ++ frames = entries.flatMap Entry.left ++ c.transport.queue ∧
      c.traffic = {
        packetsSent := UInt64.ofNat frames.length
        bytesSent := UInt64.ofNat frames.flatten.length
        packetsReceived := UInt64.ofNat (entries.filterMap Entry.read?).length
        bytesReceived := UInt64.ofNat arrived.flatten.length }) ∧
    entries.filterMap Entry.read? = arrived.filterMap hub.packetOf ∧
    (∀ won later, wins = won :: later → won = true ∧ ∀ w ∈ later, w = false) ∧
    c.active = wins.isEmpty ∧
    c.id = (calls.filterMap Call.id?).head? ∧
    (∀ packet,
      (c.active = false → c.send hub' packet = (.ok (), c, hub')) ∧
      (∀ e, (c.send hub' packet).1 = .error e → (c.send hub' packet).2.1 = c) ∧
      ∀ frame, .close ∈ calls → c.active = true → (hub'.codec.encode packet).1 = .ok frame →
        (c.send hub' packet).1 = .error .connectionClosed) ∧
    ∀ more, (c.active = false → (c.run hub' more).2.1.active = false) ∧
      ∀ id, c.id = some id → (c.run hub' more).2.1.id = some id := by
  let start : Connection C := { context, transport }
  have hcalls := start.calls_run hub calls
  obtain ⟨frames, hbalance⟩ := start.balance_run hub calls
  have hread := start.read_run hub calls
  have hwon := @won_run C P _ start hub calls
  have hactive := start.active_run hub calls
  have hid := start.id_run hub calls
  have hclosed := start.closed_run hub calls
  have harrived : (start.run hub calls).1.filterMap Entry.arrived? =
      calls.filterMap Call.arriving? := by
    have hmap := congrArg (List.filterMap Call.arriving?) hcalls
    rwa [List.filterMap_map] at hmap
  have htraffic := hbalance.traffic
  rw [harrived] at htraffic
  change (let (entries, c, hub') := start.run hub calls; _)
  generalize start.run hub calls = reached at *
  obtain ⟨entries, c, hub'⟩ := reached
  refine ⟨hcalls, ⟨frames, hbalance.encoded, hbalance.queue, ?_⟩, hread, fun _ _ => hwon, hactive,
    hid, fun packet => ⟨fun h => send_of_inactive h hub' packet, fun e => send_unchanged, ?_⟩,
    fun more => ⟨fun h => ?_, fun id h => ?_⟩⟩
  · simpa [traded, start] using htraffic
  · intro frame hclose hstill hframe
    have hany : calls.any Call.closes = true := List.any_eq_true.mpr ⟨.close, hclose, rfl⟩
    exact send_of_closed hstill (by rw [hclosed, hany, Bool.or_true]) hframe
  · rw [active_run, h, Bool.false_and]
  · rw [id_run, h, Option.some_or]

/-- A connection that sent one of two packets, read one of two frames and was closed refuses the next
    packet. The first of two later calls makes it inactive. -/
theorem accounts_for_one_frame :
    let ping : FieldPacket := ⟨Ping.kind, [.u64 5]⟩
    let frame : Bytes := [0, 8, 0, 0, 0, 0, 0, 0, 0, 0, 5]
    let hub : Hub FieldPacket :=
      { codec := (Codec.ofRegistry ⟨[.zero Ping.kind [.u64]]⟩).withScratchSize 16 }
    let calls : List (Call FieldPacket) := [.assignId 7, .send ping, .send (.zero ⟨"Unknown"⟩ []),
      .receive frame, .receive [1], .assignId 8, .close]
    let (entries, c, hub') := run { context := () } hub calls
    let (marks, last, _) := c.run hub' [.markInactive, .markInactive]
    entries.filterMap Entry.encoded? = [.ok frame] ∧ c.transport.queue = [frame] ∧
    c.traffic = ⟨1, 11, 1, 12⟩ ∧ c.id = some 7 ∧
    (.close ∈ calls ∧ c.active = true ∧ (hub'.codec.encode ping).1 = .ok frame ∧
      (c.send hub' ping).1 = .error .connectionClosed ∧ (c.send hub' ping).2.1 = c) ∧
    marks.filterMap Entry.won? = [true, false] ∧ last.active = false := by
  intro ping frame hub calls
  have hactive : (run { context := () } hub calls).2.1.active = true := by rfl
  have hclose : .close ∈ calls := by simp [calls]
  have hencode : ((run { context := () } hub calls).2.2.codec.encode ping).1 = .ok frame := by
    dsimp only [calls, hub, frame, ping]
    rfl
  have hsent : (run { context := () } hub calls).1.filterMap Entry.encoded? = [.ok frame] := by
    dsimp only [calls, hub, frame, ping]
    rfl
  have hread : ((run { context := () } hub calls).1.filterMap Entry.read?).length = 1 := by
    dsimp only [calls, hub, frame, ping]
    rfl
  have hleft : (run { context := () } hub calls).1.flatMap Entry.left = [] := by rfl
  have hall := accounts_for_frames () {} hub calls
  generalize run { context := () } hub calls = reached at hall hactive hencode hsent hread hleft ⊢
  obtain ⟨entries, c, hub'⟩ := reached
  obtain ⟨-, ⟨frames, hframes, hqueue, htraffic⟩, -, -, -, hid, hnext, -⟩ := hall
  obtain ⟨-, hsame, hclosed⟩ := hnext ping
  have hrefused := hclosed frame hclose hactive hencode
  obtain ⟨_, rfl, hframe⟩ := List.map_eq_singleton_iff.mp (hframes.symm.trans hsent)
  obtain rfl := Except.ok.inj hframe
  rw [hleft] at hqueue
  rw [hread] at htraffic
  refine ⟨hsent, hqueue.symm, htraffic, hid, ⟨hclose, hactive, hencode, hrefused, hsame _ hrefused⟩,
    ?_, rfl⟩
  have hmarks : (c.run hub' [.markInactive, .markInactive]).1.filterMap Entry.won? =
      [c.active, false] := rfl
  exact hmarks.trans (congrArg ([·, false]) hactive)

end Connection
end ShardMesh
