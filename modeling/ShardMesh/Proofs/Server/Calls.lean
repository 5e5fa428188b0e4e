import ShardMesh.Server
import ShardMesh.Proofs.Connection

/-!
# What is done with a server

Sessions tell a server what happens to them, somebody sends or moves or removes. Most of this is no
news to listeners (`Silent`). The rest is a session that begins, a frame that arrives and a session
that ends, and only the first end of a session counts.
-/

namespace ShardMesh

variable {C P : Type}

/-- The dispatcher after it was handed some events, one after the other. -/
def Dispatcher.hear (d : Dispatcher P) (events : List (ConnectionEvent P)) : Dispatcher P :=
  events.foldl (fun d event => (d.dispatch event).2) d

namespace Server

/-! ## Calls and news -/

/-- What can be done with a server: a session tells it something, somebody uses a connection, or
    somebody moves or removes one. -/
inductive Call (P : Type) where
  | ready (transport : Transport)
  | frame (seat : Seat) (bytes : Bytes)
  | closed (seat : Seat) (reason : DisconnectReason)
  | writeError (seat : Seat)
  | setTransport (seat : Seat) (transport : Transport)
  | send (seat : Seat) (packet : P)
  | move (id : ConnectionId) (shard : ShardId)
  | assign (id : ConnectionId) (key : UInt64)
  | remove (id : ConnectionId)
  /-- No more sessions are accepted, and all registered connections are closed. -/
  | stop

/-- The session on which seat a call ends, and for what reason. -/
def Call.ending? : Call P → Option (Seat × DisconnectReason)
  | .closed seat reason => some (seat, reason)
  | .writeError seat => some (seat, .reset)
  | _ => none

/-- For what reason a call ends the session on a seat. -/
def Call.end? (seat : Seat) (call : Call P) : Option DisconnectReason :=
  (call.ending?.filter fun ending => ending.1 = seat).map Prod.snd

/-- The packet that a call brings to a seat. -/
def Call.packet? (read : Bytes → Option P) (seat : Seat) : Call P → Option P
  | .frame there bytes => if there = seat then read bytes else none
  | _ => none

theorem end?_of_ending {call : Call P} {seat : Seat} {reason : DisconnectReason}
    (h : call.ending? = some (seat, reason)) (seat' : Seat) :
    call.end? seat' = if seat = seat' then some reason else none := by
  unfold Call.end?
  rw [h]
  by_cases hseat : seat = seat' <;> simp [hseat]

theorem end?_of_none {call : Call P} (h : call.ending? = none) (seat : Seat) :
    call.end? seat = none := by
  unfold Call.end?
  rw [h]
  rfl

theorem packet?_frame (read : Bytes → Option P) (seat there : Seat) (bytes : Bytes) :
    (Call.frame there bytes).packet? read seat = if there = seat then read bytes else none := rfl

theorem packet?_of_end {call : Call P} {seat : Seat} {reason : DisconnectReason}
    (h : call.end? seat = some reason) (read : Bytes → Option P) : call.packet? read seat = none := by
  cases call with
  | frame there bytes => cases h
  | _ => rfl

/-- The news of an end. -/
def endNews (reason : DisconnectReason) : News P := if reason = .closed then .inactive else .failed

/-- The id of each connection, by seat, and whether it is active. -/
def lives (s : Server C P) : List (Option ConnectionId × Bool) :=
  s.roster.connections.map fun c => (c.id, c.active)

/-- What listeners are told when a session ends, with the seat that it is about. -/
def toldAtEnd (s : Server C P) (seat : Seat) (reason : DisconnectReason) :
    List (Seat × ConnectionEvent P) :=
  match s.lives[seat]? with
  | some (id, true) => [(seat, ⟨id, endNews reason⟩)]
  | _ => []

theorem getElem?_lives (s : Server C P) (seat : Seat) :
    s.lives[seat]? = (s.roster.get? seat).map fun c => (c.id, c.active) := List.getElem?_map ..

/-- The events that are about a seat. -/
def about (seat : Seat) (notices : List (Seat × ConnectionEvent P)) : List (ConnectionEvent P) :=
  (notices.filter fun notice => notice.1 = seat).map Prod.snd

theorem about_append (seat : Seat) (notices notices' : List (Seat × ConnectionEvent P)) :
    about seat (notices ++ notices') = about seat notices ++ about seat notices' := by
  rw [about, List.filter_append, List.map_append]
  rfl

theorem about_singleton (seat : Seat) (notice : Seat × ConnectionEvent P) :
    about seat [notice] = if notice.1 = seat then [notice.2] else [] := by
  by_cases h : notice.1 = seat <;> simp [about, h]

theorem about_toldAtEnd {s : Server C P} {seat : Seat} {id : Option ConnectionId} {active : Bool}
    (h : s.lives[seat]? = some (id, active)) (there : Seat) (reason : DisconnectReason) :
    about seat (s.toldAtEnd there reason) =
      if active ∧ there = seat then [⟨id, endNews reason⟩] else [] := by
  by_cases hthere : there = seat
  · subst hthere
    unfold toldAtEnd
    rw [h]
    cases active <;> simp [about]
  · unfold toldAtEnd
    split <;> simp [about, hthere]

theorem lt_of_mem_toldAtEnd {s : Server C P} {seat : Seat} {reason : DisconnectReason}
    {notice : Seat × ConnectionEvent P} (h : notice ∈ s.toldAtEnd seat reason) :
    notice.1 < s.lives.length := by
  unfold toldAtEnd at h
  split at h
  · rename_i hlife
    rw [List.mem_singleton.mp h]
    exact (List.getElem?_eq_some_iff.mp hlife).1
  · cases h

/-- What there is to tell of the connection on a seat after it became active: the packets before the
    first end, and this end. -/
def story (read : Bytes → Option P) (seat : Seat) (calls : List (Call P)) : List (News P) :=
  ((calls.takeWhile fun call => (call.end? seat).isNone).filterMap (·.packet? read seat)).map
      .packet ++
    ((calls.findSome? (·.end? seat)).map endNews).toList

theorem story_cons_of_end {read : Bytes → Option P} {seat : Seat} {call : Call P}
    {reason : DisconnectReason} (h : call.end? seat = some reason) (calls : List (Call P)) :
    story read seat (call :: calls) = [endNews reason] := by
  simp [story, h]

theorem story_cons_of_open {read : Bytes → Option P} {seat : Seat} {call : Call P}
    (h : call.end? seat = none) (calls : List (Call P)) :
    story read seat (call :: calls) =
      ((call.packet? read seat).map News.packet).toList ++ story read seat calls := by
  cases hpacket : call.packet? read seat <;> simp [story, h, hpacket]

/-! ## Sessions that begin and end -/

/-- A session that is accepted gets the next seat and the next id, and listeners are told. -/
theorem onReady_of_ok {s : Server C P} {transport : Transport} {seat : Seat}
    (h : (s.onReady transport).1 = .ok seat) :
    seat = s.roster.connections.length ∧ ∃ registry, (s.onReady transport).2 = { s with
      lastId := s.lastId + 1
      roster := (s.roster.push { id := some (s.lastId + 1), transport
                                 context := s.makeContext s.roster.connections.length }).2
      registry
      hub := s.hub.count (·.connectionEstablished)
      dispatcher := s.dispatcher.hear [⟨some (s.lastId + 1), .active⟩] } := by
  unfold onReady at h ⊢
  split at h
  · cases h
  · rename_i hrunning
    rw [if_neg hrunning]
    dsimp only at h ⊢
    split at h
    · cases h
    · rename_i registry _
      cases h
      exact ⟨rfl, registry, rfl⟩

/-- The end of a session that is active is told and counted, and there is no other end. -/
theorem onClosed_cases (s : Server C P) (seat : Seat) (reason : DisconnectReason) :
    (∃ id, s.lives[seat]? = some (id, true) ∧
      s.toldAtEnd seat reason = [(seat, ⟨id, endNews reason⟩)] ∧
      (s.onClosed seat reason).lives = s.lives.set seat (id, false) ∧
      (s.onClosed seat reason).hub = s.hub.count (·.connectionClosed) ∧
      (s.onClosed seat reason).dispatcher = s.dispatcher.hear [⟨id, endNews reason⟩]) ∨
    (∀ id, s.lives[seat]? ≠ some (id, true)) ∧ s.toldAtEnd seat reason = [] ∧
      s.onClosed seat reason = s := by
  unfold toldAtEnd onClosed
  rw [getElem?_lives]
  cases hc : s.roster.get? seat with
  | none => exact .inr ⟨nofun, rfl, rfl⟩
  | some c =>
    obtain ⟨id, active, context, transport, traffic⟩ := c
    cases active with
    | false =>
      refine .inr ⟨fun id h => ?_, rfl, rfl⟩
      cases h
    | true =>
      have hnews : (if reason.isError then .failed else .inactive : News P) = endNews reason := by
        cases reason <;> rfl
      dsimp only [Connection.markInactive]
      rw [hnews]
      exact .inl ⟨id, rfl, rfl, List.map_set .., rfl, rfl⟩

theorem registry_onClosed (s : Server C P) (seat : Seat) (reason : DisconnectReason) :
    (s.onClosed seat reason).registry = s.registry := by
  unfold onClosed
  split
  · rfl
  · split <;> rfl

/-! ## What listeners are told -/

variable [Packet P]

/-- The server after a call. -/
def apply (s : Server C P) : Call P → Server C P
  | .ready transport => (s.onReady transport).2
  | .frame seat bytes => s.onFrame seat bytes
  | .closed seat reason => s.onClosed seat reason
  | .writeError seat => s.onWriteError seat
  | .setTransport seat transport => SessionHandler.setTransport s seat transport
  | .send seat packet => (s.send seat packet).2
  | .move id shard => (s.moveToShard id shard).2
  | .assign id key => (s.assignToOwner id key).2
  | .remove id => (s.removeConnection id).2
  | .stop => s.closeAll

/-- The server after some calls. -/
def after (s : Server C P) (calls : List (Call P)) : Server C P := calls.foldl apply s

/-- What listeners are told at a call, with the seat that it is about. -/
def toldBy (s : Server C P) : Call P → List (Seat × ConnectionEvent P)
  | .ready transport =>
    match (s.onReady transport).1 with
    | .ok seat => [(seat, ⟨some (s.lastId + 1), .active⟩)]
    | .error _ => []
  | .frame seat bytes =>
    match s.lives[seat]?, s.hub.packetOf bytes with
    | some (id, true), some packet => [(seat, ⟨id, .packet packet⟩)]
    | _, _ => []
  | .closed seat reason => s.toldAtEnd seat reason
  | .writeError seat => s.toldAtEnd seat .reset
  | _ => []

/-- What listeners are told in the course of some calls. -/
def told (s : Server C P) : List (Call P) → List (Seat × ConnectionEvent P)
  | [] => []
  | call :: calls => s.toldBy call ++ (s.apply call).told calls

/-- The seat that a call gives to a session that begins. -/
def openedBy (s : Server C P) : Call P → List Seat
  | .ready transport =>
    match (s.onReady transport).1 with
    | .ok seat => [seat]
    | .error _ => []
  | _ => []

/-- The seats that are given to sessions in the course of some calls. -/
def opened (s : Server C P) : List (Call P) → List Seat
  | [] => []
  | call :: calls => s.openedBy call ++ (s.apply call).opened calls

/-! ## Calls that are no news -/

/-- Between two states of a server no connection came or ended. -/
structure Steady (s s' : Server C P) : Prop where
  lives : s'.lives = s.lives
  hub : s.hub.Alike s'.hub

theorem Steady.refl (s : Server C P) : s.Steady s := ⟨rfl, .refl s.hub⟩

theorem Steady.trans {a b c : Server C P} (h : a.Steady b) (h' : b.Steady c) : a.Steady c :=
  ⟨h'.lives.trans h.lives, h.hub.trans h'.hub⟩

/-- Nothing was told besides. -/
structure Quiet (s s' : Server C P) : Prop extends Steady s s' where
  dispatcher : s'.dispatcher = s.dispatcher

theorem Quiet.refl (s : Server C P) : s.Quiet s := ⟨.refl s, rfl⟩

theorem Quiet.trans {a b c : Server C P} (h : a.Quiet b) (h' : b.Quiet c) : a.Quiet c :=
  ⟨h.toSteady.trans h'.toSteady, h'.dispatcher.trans h.dispatcher⟩

/-- What is read off the connections stays if it does at the seat where something changes. -/
theorem map_modify {α : Type} {g : Connection C → α} {f : Connection C → Connection C}
    (hf : ∀ c, g (f c) = g c) (r : Roster C) (seat : Seat) :
    (r.modify seat f).connections.map g = r.connections.map g := by
  apply List.ext_getElem?
  intro i
  rw [Roster.modify, List.getElem?_map, List.getElem?_modify, List.getElem?_map]
  cases r.connections[i]? with
  | none => rfl
  | some c =>
    by_cases h : seat = i
    · simp [h, hf]
    · simp [h]

theorem map_set {α : Type} {g : Connection C → α} {r : Roster C} {seat : Seat} {c c' : Connection C}
    (hc : r.get? seat = some c) (h : g c' = g c) :
    (r.set seat c').connections.map g = r.connections.map g := by
  obtain ⟨hseat, rfl⟩ := List.getElem?_eq_some_iff.mp hc
  have hsame := List.set_getElem_self hseat
  rw [Roster.set, List.map_set, h]
  conv => rhs; rw [← hsame, List.map_set]

theorem lives_modify {r : Roster C} {f : Connection C → Connection C}
    (hf : ∀ c : Connection C, c.Alike (f c)) (seat : Seat) :
    (r.modify seat f).connections.map (fun c => (c.id, c.active)) =
      r.connections.map fun c => (c.id, c.active) :=
  map_modify (fun c => Prod.ext (hf c).1 (hf c).2) r seat

theorem lives_set {r : Roster C} {seat : Seat} {c c' : Connection C} (hc : r.get? seat = some c)
    (h : c.Alike c') : (r.set seat c').connections.map (fun c => (c.id, c.active)) =
      r.connections.map fun c => (c.id, c.active) :=
  map_set hc (Prod.ext h.1 h.2)

/-- What changes neither ids nor liveness of connections is no news. -/
theorem quiet_modify (s : Server C P) (seat : Seat) {f : Connection C → Connection C}
    (hf : ∀ c : Connection C, c.Alike (f c)) :
    s.Quiet { s with roster := s.roster.modify seat f } :=
  ⟨⟨lives_modify hf seat, .refl s.hub⟩, rfl⟩

theorem quiet_close (s : Server C P) (seat : Seat) : s.Quiet (s.close seat) :=
  s.quiet_modify seat fun _ => ⟨rfl, rfl⟩

theorem quiet_setTransport (s : Server C P) (seat : Seat) (transport : Transport) :
    s.Quiet (SessionHandler.setTransport s seat transport) :=
  s.quiet_modify seat fun _ => ⟨rfl, rfl⟩

theorem quiet_send (s : Server C P) (seat : Seat) (packet : P) : s.Quiet (s.send seat packet).2 := by
  have hsend : (s.send seat packet).2 = { s with
      roster := (s.roster.send s.hub seat packet).2.1
      hub := (s.roster.send s.hub seat packet).2.2 } := rfl
  rw [hsend]
  unfold Roster.send
  cases hc : s.roster.get? seat with
  | none => exact .refl s
  | some c =>
    obtain ⟨hconnection, hhub⟩ := c.alike_send s.hub packet
    exact ⟨⟨lives_set hc hconnection, hhub⟩, rfl⟩

/-- What is done in the registry is no news, and moves are counted elsewhere. -/
theorem quiet_countMove (s : Server C P) (registry : ShardRegistry Seat) (changed : Bool) :
    s.Quiet { s with toDirectory := Directory.countMove { s.toDirectory with registry } changed } := by
  unfold Directory.countMove
  cases changed <;> exact ⟨⟨rfl, ⟨fun _ => rfl, rfl, rfl⟩⟩, rfl⟩

theorem quiet_registry (s : Server C P) (registry : ShardRegistry Seat) :
    s.Quiet { s with registry } :=
  ⟨⟨rfl, .refl s.hub⟩, rfl⟩

theorem quiet_move (s : Server C P) (id : ConnectionId) (shard : ShardId) :
    s.Quiet (s.moveToShard id shard).2 := by
  have hmove : (s.moveToShard id shard).2 =
      { s with toDirectory := (s.toDirectory.move id shard).2 } := rfl
  rw [hmove]
  unfold Directory.move
  split
  · exact s.quiet_countMove _ _
  · exact s.quiet_registry _

theorem quiet_assign (s : Server C P) (id : ConnectionId) (key : UInt64) :
    s.Quiet (s.assignToOwner id key).2 := by
  have hassign : (s.assignToOwner id key).2 =
      { s with toDirectory := (s.toDirectory.assign id key).2 } := rfl
  rw [hassign]
  unfold Directory.assign
  split
  · exact s.quiet_countMove _ _
  · exact s.quiet_registry _

theorem quiet_remove (s : Server C P) (id : ConnectionId) : s.Quiet (s.removeConnection id).2 := by
  have hremoved := s.quiet_registry (s.registry.remove id).2
  have hremove : s.withDirectory (·.remove id) =
      ((s.registry.remove id).1, { s with registry := (s.registry.remove id).2 }) := rfl
  unfold removeConnection
  rw [hremove]
  cases (s.registry.remove id).1 with
  | none => exact hremoved
  | some seat => exact hremoved.trans (quiet_close _ seat)

theorem quiet_closeAll (s : Server C P) : s.Quiet s.closeAll := by
  have hclose (seats : List Seat) (s : Server C P) : s.Quiet (seats.foldl close s) := by
    induction seats generalizing s with
    | nil => exact .refl s
    | cons seat seats ih => exact (s.quiet_close seat).trans (ih _)
  have hstopping : s.Quiet { s with shuttingDown := true } := ⟨⟨rfl, .refl s.hub⟩, rfl⟩
  exact hstopping.trans (hclose _ _)

/-! ## Calls that are news -/

/-- A session that is refused is not heard of. -/
theorem quiet_onReady {s : Server C P} {transport : Transport} {e : ProtocolError × Transport}
    (h : (s.onReady transport).1 = .error e) : s.Quiet (s.onReady transport).2 := by
  unfold onReady at h ⊢
  split at h
  · rename_i hstopped
    rw [if_pos hstopped]
    exact .refl s
  · rename_i hrunning
    rw [if_neg hrunning]
    dsimp only at h ⊢
    split at h
    · exact ⟨⟨rfl, .refl s.hub⟩, rfl⟩
    · cases h

theorem toldBy_frame_of_active {s : Server C P} {seat : Seat} {id : Option ConnectionId}
    (h : s.lives[seat]? = some (id, true)) (bytes : Bytes) :
    s.toldBy (.frame seat bytes) =
      ((s.hub.packetOf bytes).map fun packet => (seat, ⟨id, .packet packet⟩)).toList := by
  unfold toldBy
  dsimp only
  rw [h]
  cases s.hub.packetOf bytes <;> rfl

theorem toldBy_frame_of_inactive {s : Server C P} {seat : Seat}
    (h : ∀ id, s.lives[seat]? ≠ some (id, true)) (bytes : Bytes) :
    s.toldBy (.frame seat bytes) = [] := by
  unfold toldBy
  dsimp only
  split
  · rename_i hlife _
    exact absurd hlife (h _)
  · rfl

theorem onFrame_of_active {s : Server C P} {seat : Seat} {c : Connection C}
    (hc : s.roster.get? seat = some c) (hactive : c.active = true) (bytes : Bytes) :
    s.onFrame seat bytes =
      match c.receive s.hub bytes with
      | (none, c, hub) => { s with roster := s.roster.set seat c, hub }
      | (some packet, c, hub) =>
        let (c, hub) :=
          match Packet.ping? packet with
          | some _ => (c.send hub packet).2
          | none => (c, hub)
        { s with roster := s.roster.set seat c, hub }.announce c.id (.packet packet) := by
  unfold onFrame
  rw [hc]
  dsimp only
  rw [hactive]
  rfl

theorem onFrame_of_inactive {s : Server C P} {seat : Seat}
    (h : ∀ id, s.lives[seat]? ≠ some (id, true)) (bytes : Bytes) : s.onFrame seat bytes = s := by
  unfold onFrame
  cases hc : s.roster.get? seat with
  | none => rfl
  | some c =>
    refine if_pos ?_
    rw [Bool.not_eq_true', ← Bool.not_eq_true]
    intro hactive
    refine h c.id ?_
    rw [getElem?_lives, hc, Option.map_some, hactive]

/-- After a frame connections are what they were, and listeners were told of its packet. -/
theorem onFrame_spec (s : Server C P) (seat : Seat) (bytes : Bytes) :
    s.Steady (s.onFrame seat bytes) ∧ (s.onFrame seat bytes).dispatcher =
      s.dispatcher.hear ((s.toldBy (.frame seat bytes)).map Prod.snd) := by
  by_cases hactive : ∃ id, s.lives[seat]? = some (id, true)
  · obtain ⟨id, hlife⟩ := hactive
    rw [toldBy_frame_of_active hlife]
    rw [getElem?_lives, Option.map_eq_some_iff] at hlife
    obtain ⟨c, hc, hlife⟩ := hlife
    obtain ⟨rfl, hactive⟩ := Prod.mk.inj hlife
    have halike := c.alike_receive s.hub bytes
    rw [onFrame_of_active hc hactive, ← c.receive_fst]
    generalize c.receive s.hub bytes = received at halike ⊢
    obtain ⟨packet, c', hub'⟩ := received
    obtain ⟨hconnection, hhub⟩ := halike
    cases packet with
    | none => exact ⟨⟨lives_set hc hconnection, hhub⟩, rfl⟩
    | some packet =>
      -- A probe is sent back before listeners are told.
      have hreply : ∃ c'' hub'', (match Packet.ping? packet with
          | some _ => (c'.send hub' packet).2
          | none => (c', hub')) = (c'', hub'') ∧ c.Alike c'' ∧ s.hub.Alike hub'' := by
        cases Packet.ping? packet with
        | none => exact ⟨c', hub', rfl, hconnection, hhub⟩
        | some _ =>
          obtain ⟨hsent, hcounted⟩ := c'.alike_send hub' packet
          exact ⟨_, _, rfl, hconnection.trans hsent, hhub.trans hcounted⟩
      obtain ⟨c'', hub'', heq, hconnection, hhub⟩ := hreply
      dsimp only
      rw [heq, hconnection.1]
      exact ⟨⟨lives_set hc hconnection, hhub⟩, rfl⟩
  · have hlife (id : Option ConnectionId) : s.lives[seat]? ≠ some (id, true) :=
      fun h => hactive ⟨id, h⟩
    rw [onFrame_of_inactive hlife, toldBy_frame_of_inactive hlife]
    exact ⟨.refl s, rfl⟩

/-- Calls that end a session end it alike. -/
theorem quiet_of_ending {call : Call P} {seat : Seat} {reason : DisconnectReason}
    (h : call.ending? = some (seat, reason)) (s : Server C P) :
    (s.onClosed seat reason).Quiet (s.apply call) ∧ s.openedBy call = [] ∧
      s.toldBy call = s.toldAtEnd seat reason ∧ ∀ read seat, call.packet? read seat = none := by
  cases call with
  | closed seat' reason' =>
    cases h
    exact ⟨.refl _, rfl, rfl, fun _ _ => rfl⟩
  | writeError seat' =>
    cases h
    exact ⟨quiet_close _ seat, rfl, rfl, fun _ _ => rfl⟩
  | _ => cases h

/-- A call that is no news at all. -/
structure Silent (s : Server C P) (call : Call P) : Prop extends s.Quiet (s.apply call) where
  opened : s.openedBy call = []
  told : s.toldBy call = []
  ending : call.ending? = none
  packet : ∀ read seat, call.packet? read seat = none

/-- A session begins, or a frame arrives, or a session ends, or else there is no news. -/
theorem call_cases (s : Server C P) (call : Call P) :
    (∃ transport, call = .ready transport) ∨ (∃ seat bytes, call = .frame seat bytes) ∨
      (∃ seat reason, call.ending? = some (seat, reason)) ∨ s.Silent call := by
  cases call with
  | ready transport => exact .inl ⟨transport, rfl⟩
  | frame seat bytes => exact .inr (.inl ⟨seat, bytes, rfl⟩)
  | closed seat reason => exact .inr (.inr (.inl ⟨seat, reason, rfl⟩))
  | writeError seat => exact .inr (.inr (.inl ⟨seat, .reset, rfl⟩))
  | setTransport seat transport =>
    exact .inr (.inr (.inr ⟨s.quiet_setTransport seat transport, rfl, rfl, rfl, fun _ _ => rfl⟩))
  | send seat packet =>
    exact .inr (.inr (.inr ⟨s.quiet_send seat packet, rfl, rfl, rfl, fun _ _ => rfl⟩))
  | move id shard => exact .inr (.inr (.inr ⟨s.quiet_move id shard, rfl, rfl, rfl, fun _ _ => rfl⟩))
  | assign id key => exact .inr (.inr (.inr ⟨s.quiet_assign id key, rfl, rfl, rfl, fun _ _ => rfl⟩))
  | remove id => exact .inr (.inr (.inr ⟨s.quiet_remove id, rfl, rfl, rfl, fun _ _ => rfl⟩))
  | stop => exact .inr (.inr (.inr ⟨s.quiet_closeAll, rfl, rfl, rfl, fun _ _ => rfl⟩))

/-! ## What a single call does -/

/-- The dispatcher is handed what listeners are told. -/
theorem dispatcher_apply (s : Server C P) (call : Call P) :
    (s.apply call).dispatcher = s.dispatcher.hear ((s.toldBy call).map Prod.snd) := by
  rcases s.call_cases call with ⟨transport, rfl⟩ | ⟨seat, bytes, rfl⟩ | ⟨seat, reason, hend⟩ |
    hsilent
  · unfold toldBy
    dsimp only
    cases h : (s.onReady transport).1 with
    | ok seat =>
      obtain ⟨-, registry, hafter⟩ := onReady_of_ok h
      rw [apply, hafter]
      rfl
    | error e => exact (quiet_onReady h).dispatcher
  · exact (s.onFrame_spec seat bytes).2
  · obtain ⟨hquiet, -, htold, -⟩ := quiet_of_ending hend s
    rw [hquiet.dispatcher, htold]
    rcases s.onClosed_cases seat reason with ⟨id, -, htold, -, -, hafter⟩ | ⟨-, htold, hsame⟩
    · rw [hafter, htold]
      rfl
    · rw [hsame, htold]
      rfl
  · rw [hsilent.dispatcher, hsilent.told]
    rfl

/-- Frames are read as before. -/
theorem packetOf_apply (s : Server C P) (call : Call P) :
    (s.apply call).hub.packetOf = s.hub.packetOf := by
  funext frame
  rcases s.call_cases call with ⟨transport, rfl⟩ | ⟨seat, bytes, rfl⟩ | ⟨seat, reason, hend⟩ |
    hsilent
  · cases h : (s.onReady transport).1 with
    | ok seat =>
      obtain ⟨-, registry, hafter⟩ := onReady_of_ok h
      rw [apply, hafter, Hub.packetOf_eq, Hub.packetOf_eq]
      rfl
    | error e => exact (quiet_onReady h).hub.packetOf frame
  · exact (s.onFrame_spec seat bytes).1.hub.packetOf frame
  · obtain ⟨hquiet, -⟩ := quiet_of_ending hend s
    rw [hquiet.hub.packetOf]
    rcases s.onClosed_cases seat reason with ⟨id, -, -, -, hafter, -⟩ | ⟨-, -, hsame⟩
    · rw [hafter, Hub.packetOf_eq, Hub.packetOf_eq]
      rfl
    · rw [hsame]
  · exact hsilent.hub.packetOf frame

/-- A connection keeps its seat and its id, and it is active until a call ends it. -/
theorem lives_apply {s : Server C P} {seat : Seat} {id : Option ConnectionId} {active : Bool}
    (h : s.lives[seat]? = some (id, active)) (call : Call P) :
    (s.apply call).lives[seat]? = some (id, active && (call.end? seat).isNone) := by
  have hseat : seat < s.lives.length := (List.getElem?_eq_some_iff.mp h).1
  rcases s.call_cases call with ⟨transport, rfl⟩ | ⟨seat', bytes, rfl⟩ | ⟨seat', reason, hend⟩ |
    hsilent
  · rw [end?_of_none rfl, Option.isNone_none, Bool.and_true]
    cases hready : (s.onReady transport).1 with
    | ok new =>
      obtain ⟨-, registry, hafter⟩ := onReady_of_ok hready
      have hlives : (s.apply (.ready transport)).lives =
          s.lives ++ [(some (s.lastId + 1), true)] := by
        rw [apply, hafter]
        exact List.map_append
      rw [hlives, List.getElem?_append_left hseat, h]
    | error e => rw [apply, (quiet_onReady hready).lives, h]
  · rw [apply, (s.onFrame_spec seat' bytes).1.lives, h, end?_of_none rfl, Option.isNone_none,
      Bool.and_true]
  · obtain ⟨hquiet, -⟩ := quiet_of_ending hend s
    rw [hquiet.lives, end?_of_ending hend]
    rcases s.onClosed_cases seat' reason with ⟨id', hlife, -, hlives, -⟩ | ⟨hlife, -, hsame⟩
    · rw [hlives, List.getElem?_set]
      by_cases hsame : seat' = seat
      · subst hsame
        rw [hlife] at h
        cases h
        simp [hseat]
      · simp [hsame, h]
    · rw [hsame, h]
      by_cases hsame : seat' = seat
      · subst hsame
        cases active with
        | false => rfl
        | true => exact absurd h (hlife id)
      · simp [hsame]
  · rw [hsilent.lives, h, end?_of_none hsilent.ending, Option.isNone_none, Bool.and_true]

/-- A session that begins is no news of a connection that there is. -/
theorem about_toldBy_ready {s : Server C P} {seat : Seat} (h : seat < s.lives.length)
    (transport : Transport) : about seat (s.toldBy (.ready transport)) = [] := by
  unfold toldBy
  dsimp only
  cases hready : (s.onReady transport).1 with
  | ok new =>
    have hnew : new = s.lives.length := (onReady_of_ok hready).1.trans (List.length_map ..).symm
    have hne : new ≠ seat := hnew ▸ Nat.ne_of_gt h
    rw [about_singleton, if_neg hne]
  | error e => rfl

theorem about_toldBy_frame {s : Server C P} {seat : Seat} {id : Option ConnectionId} {active : Bool}
    (h : s.lives[seat]? = some (id, active)) (there : Seat) (bytes : Bytes) :
    about seat (s.toldBy (.frame there bytes)) = if active ∧ there = seat then
      ((s.hub.packetOf bytes).map fun packet => ⟨id, .packet packet⟩).toList else [] := by
  by_cases hthere : there = seat
  · subst hthere
    cases active with
    | true =>
      rw [toldBy_frame_of_active h]
      cases s.hub.packetOf bytes <;> simp [about]
    | false =>
      rw [toldBy_frame_of_inactive fun id' h' => by rw [h] at h'; cases h']
      rfl
  · unfold toldBy
    dsimp only
    split <;> simp [about, hthere]

/-- Listeners hear of an active connection its packets and its end, and nothing of another one. -/
theorem about_toldBy {s : Server C P} {seat : Seat} {id : Option ConnectionId} {active : Bool}
    (h : s.lives[seat]? = some (id, active)) (call : Call P) :
    about seat (s.toldBy call) = if active then
      (((call.packet? s.hub.packetOf seat).map News.packet).toList ++
        ((call.end? seat).map endNews).toList).map (⟨id, ·⟩) else [] := by
  rcases s.call_cases call with ⟨transport, rfl⟩ | ⟨there, bytes, rfl⟩ | ⟨there, reason, hend⟩ |
    hsilent
  · rw [about_toldBy_ready (List.getElem?_eq_some_iff.mp h).1]
    cases active <;> rfl
  · rw [about_toldBy_frame h, end?_of_none rfl, packet?_frame]
    by_cases hthere : there = seat <;> cases active <;> cases s.hub.packetOf bytes <;> simp [hthere]
  · obtain ⟨-, -, htold, hpacket⟩ := quiet_of_ending hend s
    rw [htold, hpacket, about_toldAtEnd h, end?_of_ending hend]
    by_cases hthere : there = seat <;> cases active <;> simp [hthere]
  · rw [hsilent.told, end?_of_none hsilent.ending, hsilent.packet]
    cases active <;> rfl

end Server
end ShardMesh
