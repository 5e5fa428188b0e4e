import ShardMesh.Proofs.Server.Lifecycle
import ShardMesh.Proofs.Shard.Placement

/-!
# Who is who on a server

A session that is accepted gets the next id, a connection with this id and a context of its own, and is
registered under the id. Nothing changes the id or the context of a connection afterwards, and no id is
given twice while ids last. So the registered ids are those that were accepted and not removed, and of
the removals of an id the first one after it was accepted returns its connection
(`ids_in_order_of_acceptance`).
-/

namespace ShardMesh.Server

open ShardRegistry (Refines)

variable {C P : Type}

/-! ## What stays -/

/-- The id and the context of each connection, by seat. -/
def identities (s : Server C P) : List (Option ConnectionId × C) :=
  s.roster.connections.map fun c => (c.id, c.context)

/-- Connections are who they were, and the next session will be who it would have been. -/
structure SameBook (s s' : Server C P) : Prop where
  identities : s'.identities = s.identities
  lastId : s'.lastId = s.lastId
  makeContext : s'.makeContext = s.makeContext
  shuttingDown : s'.shuttingDown = s.shuttingDown

/-- A registry has the same members, in whatever shards, if it was in order before. -/
def SameMembers (r r' : ShardRegistry Seat) : Prop :=
  ∀ m, Refines r m → (∃ m', Refines r' m') ∧ (∀ id, r'.member? id = r.member? id) ∧
    ((r.shards.get? unassignedShard).isSome → (r'.shards.get? unassignedShard).isSome)

theorem SameBook.refl (s : Server C P) : s.SameBook s := ⟨rfl, rfl, rfl, rfl⟩

theorem SameBook.trans {a b c : Server C P} (h : a.SameBook b) (h' : b.SameBook c) : a.SameBook c :=
  ⟨h'.identities.trans h.identities, h'.lastId.trans h.lastId, h'.makeContext.trans h.makeContext,
    h'.shuttingDown.trans h.shuttingDown⟩

theorem SameMembers.refl (r : ShardRegistry Seat) : SameMembers r r :=
  fun m h => ⟨⟨m, h⟩, fun _ => rfl, id⟩

theorem sameBook_close (s : Server C P) (seat : Seat) : s.SameBook (s.close seat) :=
  ⟨map_modify (f := (·.close)) (fun _ => rfl) s.roster seat, rfl, rfl, rfl⟩

theorem sameBook_onClosed (s : Server C P) (seat : Seat) (reason : DisconnectReason) :
    s.SameBook (s.onClosed seat reason) := by
  unfold onClosed
  cases hc : s.roster.get? seat with
  | none => exact .refl s
  | some c =>
    obtain ⟨id, active, context, transport, traffic⟩ := c
    cases active with
    | false => exact .refl s
    | true => exact ⟨map_set hc rfl, rfl, rfl, rfl⟩

theorem sameBook_closeEach (s : Server C P) (seats : List Seat) :
    s.SameBook (seats.foldl close s) ∧ (seats.foldl close s).registry = s.registry := by
  induction seats generalizing s with
  | nil => exact ⟨.refl s, rfl⟩
  | cons seat seats ih =>
    obtain ⟨hbook, hregistry⟩ := ih (s.close seat)
    exact ⟨(s.sameBook_close seat).trans hbook, hregistry⟩

variable [Packet P]

theorem sameBook_onFrame (s : Server C P) (seat : Seat) (bytes : Bytes) :
    s.SameBook (s.onFrame seat bytes) ∧ (s.onFrame seat bytes).registry = s.registry := by
  unfold onFrame
  cases hc : s.roster.get? seat with
  | none => exact ⟨.refl s, rfl⟩
  | some c =>
    dsimp only
    split
    · exact ⟨.refl s, rfl⟩
    · have hid := (c.alike_receive s.hub bytes).1.1
      have hcontext := c.context_receive s.hub bytes
      split
      · rename_i c' hub' hreceive
        rw [hreceive] at hid hcontext
        exact ⟨⟨map_set hc (Prod.ext hid hcontext), rfl, rfl, rfl⟩, rfl⟩
      · rename_i packet c' hub' hreceive
        rw [hreceive] at hid hcontext
        cases Packet.ping? packet with
        | none => exact ⟨⟨map_set hc (Prod.ext hid hcontext), rfl, rfl, rfl⟩, rfl⟩
        | some ping =>
          have hid' := (c'.alike_send hub' packet).1.1.trans hid
          have hcontext' := (c'.context_send hub' packet).trans hcontext
          exact ⟨⟨map_set hc (Prod.ext hid' hcontext'), rfl, rfl, rfl⟩, rfl⟩

theorem sameBook_send (s : Server C P) (seat : Seat) (packet : P) :
    s.SameBook (s.send seat packet).2 ∧ (s.send seat packet).2.registry = s.registry := by
  have hsend : (s.send seat packet).2 = { s with
      roster := (s.roster.send s.hub seat packet).2.1
      hub := (s.roster.send s.hub seat packet).2.2 } := rfl
  rw [hsend]
  refine ⟨⟨?_, rfl, rfl, rfl⟩, rfl⟩
  unfold identities Roster.send
  cases hc : s.roster.get? seat with
  | none => rfl
  | some c =>
    exact map_set hc (Prod.ext (c.alike_send s.hub packet).1.1 (c.context_send s.hub packet))

/-! ## Calls on the registry -/

omit [Packet P] in
theorem sameMembers_move (r : ShardRegistry Seat) (id : ConnectionId) (target : ShardId) :
    SameMembers r (r.move id target).2 := by
  intro m h
  have hcall : (r.call (.move id target)).2 = (r.move id target).2 := rfl
  have hafter := (h.call (.move id target)).2
  rw [hcall] at hafter
  refine ⟨⟨_, hafter⟩, fun x => ?_, fun hknown => hcall ▸ h.isSome_call (.move id target) hknown⟩
  rw [hafter.member?, h.member?, Assignment.call]
  cases hget : m.placed.get? id with
  | none => rfl
  | some entry =>
    obtain ⟨source, seat⟩ := entry
    dsimp only
    split
    · rfl
    · split
      · rw [Dict.get?_set]
        split
        · rename_i hx
          rw [← hx, hget]
          rfl
        · rfl
      · rfl

omit [Packet P] in
/-- Moving a connection, to a shard or to the owner of a key, leaves it registered. -/
theorem sameMembers_assign (r : ShardRegistry Seat) (id : ConnectionId) (key : UInt64) :
    SameMembers r (r.moveToOwner id key).2 := by
  have hmove := sameMembers_move r id (r.table.ownerOf key)
  have hsame : (r.moveToOwner id key).2 = (r.move id (r.table.ownerOf key)).2 := by
    unfold ShardRegistry.moveToOwner
    dsimp only
    split
    · rename_i h
      rw [h]
    · rename_i h
      rw [h]
  rw [hsame]
  exact hmove

/-- What a call leaves as it is that neither begins a session nor removes a connection nor stops the
    server. -/
theorem same_apply (s : Server C P) {call : Call P} (hready : ∀ transport, call ≠ .ready transport)
    (hremove : ∀ id, call ≠ .remove id) (hstop : call ≠ .stop) :
    s.SameBook (s.apply call) ∧ SameMembers s.registry (s.apply call).registry := by
  have hsame {s' : Server C P} (h : s.SameBook s' ∧ s'.registry = s.registry) :
      s.SameBook s' ∧ SameMembers s.registry s'.registry := ⟨h.1, h.2 ▸ .refl s.registry⟩
  cases call with
  | ready transport => exact absurd rfl (hready transport)
  | remove id => exact absurd rfl (hremove id)
  | frame seat bytes => exact hsame (s.sameBook_onFrame seat bytes)
  | closed seat reason =>
    exact hsame ⟨s.sameBook_onClosed seat reason, registry_onClosed s seat reason⟩
  | writeError seat =>
    exact hsame ⟨(s.sameBook_onClosed seat .reset).trans (sameBook_close _ seat),
      registry_onClosed s seat .reset⟩
  | setTransport seat transport =>
    exact hsame ⟨⟨map_modify (f := ({ · with transport })) (fun _ => rfl) s.roster seat, rfl, rfl, rfl⟩,
      rfl⟩
  | send seat packet => exact hsame (s.sameBook_send seat packet)
  | move id shard =>
    obtain ⟨hregistry, hroster⟩ := s.toDirectory.move_spec id shard
    refine ⟨⟨?_, rfl, rfl, rfl⟩, ?_⟩
    · show (s.toDirectory.move id shard).2.roster.connections.map _ = _
      rw [hroster]
      rfl
    · show SameMembers s.registry (s.toDirectory.move id shard).2.registry
      rw [hregistry]
      exact sameMembers_move s.registry id shard
  | assign id key =>
    obtain ⟨hregistry, hroster⟩ := s.toDirectory.assign_spec id key
    refine ⟨⟨?_, rfl, rfl, rfl⟩, ?_⟩
    · show (s.toDirectory.assign id key).2.roster.connections.map _ = _
      rw [hroster]
      rfl
    · show SameMembers s.registry (s.toDirectory.assign id key).2.registry
      rw [hregistry]
      exact sameMembers_assign s.registry id key
  | stop => exact absurd rfl hstop

/-! ## Sound servers -/

/-- Seats are given in order, each with the id and the context that are next, and whoever is registered
    is registered under the id of the seat. -/
structure Sound (s : Server C P) : Prop where
  lastId : s.lastId = UInt64.ofNat s.identities.length
  who : ∀ seat who, s.identities[seat]? = some who →
    who = (some (UInt64.ofNat (seat + 1)), s.makeContext seat)
  known : (s.registry.shards.get? unassignedShard).isSome
  refines : ∃ m, Refines s.registry m
  registered : ∀ id (seat : Nat), s.registry.member? id = some seat →
    seat < s.identities.length ∧ id = UInt64.ofNat (seat + 1)

omit [Packet P] in
/-- Soundness is a matter of the book and the members, and fewer members do no harm. -/
theorem Sound.of_sameBook {s s' : Server C P} (h : s.Sound) (hbook : s.SameBook s')
    (hknown : (s'.registry.shards.get? unassignedShard).isSome)
    (hrefines : ∃ m, Refines s'.registry m)
    (hmember : ∀ id seat, s'.registry.member? id = some seat → s.registry.member? id = some seat) :
    s'.Sound := by
  refine ⟨?_, fun seat who hwho => ?_, hknown, hrefines, fun id seat hid => ?_⟩
  · rw [hbook.lastId, hbook.identities, h.lastId]
  · rw [hbook.identities] at hwho
    rw [hbook.makeContext, h.who seat who hwho]
  · rw [hbook.identities]
    exact h.registered id seat (hmember id seat hid)

omit [Packet P] in
/-- On every seat there is a connection with the id and the context of the seat. -/
theorem Sound.connection {s : Server C P} (h : s.Sound) {seat : Nat}
    (hseat : seat < s.identities.length) : ∃ c, s.roster.get? seat = some c ∧
      c.id = some (UInt64.ofNat (seat + 1)) ∧ c.context = s.makeContext seat := by
  have hget := List.getElem?_eq_getElem hseat
  have hwho := h.who seat _ hget
  rw [hwho, identities, List.getElem?_map] at hget
  obtain ⟨c, hc, hsame⟩ := Option.map_eq_some_iff.mp hget
  exact ⟨c, hc, congrArg Prod.fst hsame, congrArg Prod.snd hsame⟩

omit [Packet P] in
theorem Sound.same {s s' : Server C P} (h : s.Sound) (hbook : s.SameBook s')
    (hmembers : SameMembers s.registry s'.registry) : s'.Sound := by
  obtain ⟨m, hm⟩ := h.refines
  obtain ⟨hrefines, hmember, hknown⟩ := hmembers m hm
  exact h.of_sameBook hbook (hknown h.known) hrefines fun id seat hid => hmember id ▸ hid

omit [Packet P] in
/-- A server that is shutting down refuses a session and stays as it is. -/
theorem onReady_of_shuttingDown {s : Server C P} (h : s.shuttingDown = true) (transport : Transport) :
    s.onReady transport = (.error (.connectionClosed, transport.close), s) := by
  unfold onReady
  rw [if_pos h]

omit [Packet P] in
/-- Any other server accepts it, on the next seat and under the next id. -/
theorem Sound.accepts {s : Server C P} (h : s.Sound) (hrunning : s.shuttingDown = false)
    (transport : Transport) :
    (s.onReady transport).1 = .ok s.identities.length ∧
      (s.onReady transport).2.identities = s.identities ++
        [(some (s.lastId + 1), s.makeContext s.identities.length)] ∧
      (s.onReady transport).2.lastId = s.lastId + 1 ∧
      (s.onReady transport).2.makeContext = s.makeContext ∧
      (s.onReady transport).2.shuttingDown = s.shuttingDown ∧
      (s.onReady transport).2.registry =
        (s.registry.call (.add (s.lastId + 1) s.identities.length unassignedShard)).2 := by
  have hlength : s.identities.length = s.roster.connections.length := List.length_map ..
  have hadd : (s.registry.add (s.lastId + 1) s.identities.length unassignedShard).1 = .ok () := by
    obtain ⟨members, hmembers⟩ := Option.isSome_iff_exists.mp h.known
    unfold ShardRegistry.add
    rw [hmembers]
    dsimp only
    split <;> rfl
  cases hregistry : s.registry.add (s.lastId + 1) s.identities.length unassignedShard with
  | mk result registry =>
    obtain rfl : result = .ok () := by rw [hregistry] at hadd; exact hadd
    have hready : s.onReady transport = (.ok s.identities.length, { s with
        lastId := s.lastId + 1
        roster := ⟨s.roster.connections ++ [{ id := some (s.lastId + 1), transport
                                              context := s.makeContext s.identities.length }]⟩
        registry
        hub := s.hub.count (·.connectionEstablished)
        dispatcher := (s.dispatcher.dispatch ⟨some (s.lastId + 1), .active⟩).2 }) := by
      rw [hlength] at hregistry ⊢
      unfold onReady
      rw [hrunning]
      simp only [Bool.false_eq_true, if_false, Roster.push, hregistry]
      rfl
    rw [hready]
    refine ⟨rfl, List.map_append, rfl, rfl, rfl, ?_⟩
    simp only [ShardRegistry.call, hregistry]

/-! ## One call -/

/-- There is room for one more id. -/
def Roomy (s : Server C P) : Prop := s.identities.length + 1 < UInt64.size

omit [Packet P] in
theorem Sound.next {s : Server C P} (h : s.Sound) :
    s.lastId + 1 = UInt64.ofNat (s.identities.length + 1) := by
  rw [h.lastId, UInt64.ofNat_add]
  rfl

omit [Packet P] in
/-- The next id is not the id of a seat that is taken. -/
theorem Sound.next_ne {s : Server C P} (h : s.Sound) (hroom : s.Roomy) {seat : Nat}
    (hseat : seat < s.identities.length) : s.lastId + 1 ≠ UInt64.ofNat (seat + 1) := by
  rw [h.next]
  intro hsame
  have hn := congrArg UInt64.toNat hsame
  have hroom' : s.identities.length + 1 < UInt64.size := hroom
  have hid : seat + 1 < UInt64.size := Nat.lt_trans (Nat.succ_lt_succ hseat) hroom'
  rw [UInt64.toNat_ofNat_of_lt' hroom', UInt64.toNat_ofNat_of_lt' hid] at hn
  omega

omit [Packet P] in
/-- A session that is accepted is registered under an id that nobody has, and the others stay. -/
theorem Sound.ready {s : Server C P} (h : s.Sound) (hroom : s.Roomy)
    (hrunning : s.shuttingDown = false) (transport : Transport) :
    (s.onReady transport).2.Sound ∧ s.registry.member? (s.lastId + 1) = none ∧
      ∀ id, (s.onReady transport).2.registry.member? id =
        if s.lastId + 1 = id then some s.identities.length else s.registry.member? id := by
  obtain ⟨-, hidentities, hlastId, hcontext, -, hregistry⟩ := h.accepts hrunning transport
  obtain ⟨m, hm⟩ := h.refines
  have hafter := (hm.call (.add (s.lastId + 1) s.identities.length unassignedShard)).2
  rw [← hregistry] at hafter
  have hmember (id : ConnectionId) : (s.onReady transport).2.registry.member? id =
      if s.lastId + 1 = id then some s.identities.length else s.registry.member? id := by
    rw [hafter.member?, hm.member?, Assignment.call, if_pos ((hm.known _).mp h.known), Dict.get?_set]
    split <;> rfl
  have hfresh : s.registry.member? (s.lastId + 1) = none := by
    cases hget : s.registry.member? (s.lastId + 1) with
    | none => rfl
    | some seat =>
      obtain ⟨hlt, hid⟩ := h.registered _ _ hget
      exact absurd hid (h.next_ne hroom hlt)
  refine ⟨⟨?_, fun seat who hwho => ?_, ?_, ⟨_, hafter⟩, fun id seat hid => ?_⟩, hfresh, hmember⟩
  · rw [hlastId, hidentities, List.length_append, h.next]
    rfl
  · rw [hidentities] at hwho
    rw [hcontext]
    rcases Nat.lt_or_ge seat s.identities.length with hseat | hseat
    · rw [List.getElem?_append_left hseat] at hwho
      exact h.who seat who hwho
    · rw [List.getElem?_append_right hseat] at hwho
      obtain ⟨hlt, rfl⟩ := List.getElem?_eq_some_iff.mp hwho
      rw [List.length_singleton] at hlt
      obtain rfl : seat = s.identities.length := by omega
      rw [List.getElem_singleton, h.next]
  · rw [hregistry]
    exact hm.isSome_call _ h.known
  · rw [hmember] at hid
    rw [hidentities, List.length_append, List.length_singleton]
    split at hid
    · rename_i hsame
      obtain rfl := Option.some.inj hid
      exact ⟨Nat.lt_succ_self _, hsame ▸ h.next⟩
    · obtain ⟨hlt, hseat⟩ := h.registered id seat hid
      exact ⟨by omega, hseat⟩

omit [Packet P] in
theorem removeConnection_eq (s : Server C P) (id : ConnectionId) :
    s.removeConnection id = ((s.registry.remove id).1,
      match (s.registry.remove id).1 with
      | some seat => { s with registry := (s.registry.remove id).2 }.close seat
      | none => { s with registry := (s.registry.remove id).2 }) := by
  unfold removeConnection withDirectory Directory.remove
  dsimp only
  rcases s.registry.remove id with ⟨_ | seat, registry⟩ <;> rfl

omit [Packet P] in
theorem sameBook_remove (s : Server C P) (id : ConnectionId) :
    s.SameBook (s.removeConnection id).2 := by
  have hunregistered : s.SameBook { s with registry := (s.registry.remove id).2 } :=
    ⟨rfl, rfl, rfl, rfl⟩
  rw [removeConnection_eq]
  dsimp only
  split
  · exact hunregistered.trans (sameBook_close _ _)
  · exact hunregistered

omit [Packet P] in
/-- A removal answers with the connection that is registered under the id, if there is one, and closes
    it; it is registered no more, and the others stay. -/
theorem Sound.remove {s : Server C P} (h : s.Sound) (id : ConnectionId) :
    (s.removeConnection id).2.Sound ∧ (s.removeConnection id).1 = s.registry.member? id ∧
      (∀ x, (s.removeConnection id).2.registry.member? x =
        if id = x then none else s.registry.member? x) ∧
      ∀ seat, s.registry.member? id = some seat →
        (s.removeConnection id).2.roster = s.roster.modify seat (·.close) := by
  obtain ⟨m, hm⟩ := h.refines
  obtain ⟨hanswer, hafter⟩ := hm.call (.remove id)
  simp only [ShardRegistry.call, Assignment.call, ShardRegistry.Answer.removed.injEq] at hanswer hafter
  rw [← hm.member?] at hanswer
  have hregistry : (s.removeConnection id).2.registry = (s.registry.remove id).2 := by
    rw [removeConnection_eq]
    dsimp only
    split <;> rfl
  have hmember (x : ConnectionId) : (s.removeConnection id).2.registry.member? x =
      if id = x then none else s.registry.member? x := by
    rw [hregistry, hafter.member?, hm.member?, Dict.get?_erase]
    split <;> rfl
  refine ⟨h.of_sameBook (s.sameBook_remove id) ?_ ⟨_, hregistry ▸ hafter⟩ fun x seat hx => ?_, ?_,
    hmember, fun seat hseat => ?_⟩
  · rw [hregistry]
    exact hm.isSome_call (.remove id) h.known
  · rw [hmember] at hx
    split at hx
    · cases hx
    · exact hx
  · rw [removeConnection_eq, hanswer]
  · rw [removeConnection_eq, hanswer, hseat]
    rfl

omit [Packet P] in
theorem sameBook_closeAll (s : Server C P) :
    { s with shuttingDown := true }.SameBook s.closeAll ∧ s.closeAll.registry = s.registry :=
  sameBook_closeEach { s with shuttingDown := true } s.registry.members

omit [Packet P] in
theorem Sound.stop {s : Server C P} (h : s.Sound) : s.closeAll.Sound := by
  obtain ⟨hbook, hregistry⟩ := s.sameBook_closeAll
  have hstopping : { s with shuttingDown := true }.Sound :=
    ⟨h.lastId, h.who, h.known, h.refines, h.registered⟩
  exact hstopping.same hbook (hregistry ▸ .refl s.registry)

/-! ## What comes and what goes -/

/-- In the course of some calls a session is accepted on a seat, and the connection there has an id.
    What is called after that is the rest of the calls. -/
def Accepts (s : Server C P) (calls : List (Call P)) (seat : Seat) (id : ConnectionId)
    (later : List (Call P)) : Prop :=
  ∃ before transport, calls = before ++ .ready transport :: later ∧
    ((s.after before).onReady transport).1 = .ok seat ∧
    ((s.after before).onReady transport).2.idOf seat = some id

/-- What a call removes: the id and the seat of the connection that it answers with. -/
def removedBy (s : Server C P) : Call P → List (ConnectionId × Seat)
  | .remove id => ((s.removeConnection id).1.map fun seat => (id, seat)).toList
  | _ => []

/-- What is removed in the course of some calls. -/
def removed (s : Server C P) : List (Call P) → List (ConnectionId × Seat)
  | [] => []
  | call :: calls => s.removedBy call ++ (s.apply call).removed calls

theorem removed_append (s : Server C P) (before after : List (Call P)) :
    s.removed (before ++ after) = s.removed before ++ (s.after before).removed after := by
  induction before generalizing s with
  | nil => rfl
  | cons call before ih => rw [List.cons_append, removed, removed, ih, List.append_assoc, after_cons]

/-- A call accepts a session, and the connection that it seats has an id. -/
def AcceptsBy (s : Server C P) (call : Call P) (seat : Seat) (id : ConnectionId) : Prop :=
  ∃ transport, call = .ready transport ∧ (s.onReady transport).1 = .ok seat ∧
    (s.onReady transport).2.idOf seat = some id

omit [Packet P] in
theorem idOf_eq (s : Server C P) (seat : Seat) :
    s.idOf seat = s.identities[seat]?.bind Prod.fst := by
  rw [identities, List.getElem?_map, Directory.idOf, Roster.get?]
  cases s.roster.connections[seat]? <;> rfl

omit [Packet P] in
/-- What is accepted is the next seat with the next id. -/
theorem Sound.acceptsBy_iff {s : Server C P} (h : s.Sound) (hrunning : s.shuttingDown = false)
    {transport : Transport} {seat : Seat} {id : ConnectionId} :
    s.AcceptsBy (.ready transport) seat id ↔ seat = s.identities.length ∧ id = s.lastId + 1 := by
  obtain ⟨hok, hidentities, -⟩ := h.accepts hrunning transport
  have hid : (s.onReady transport).2.idOf s.identities.length = some (s.lastId + 1) := by
    rw [idOf_eq, hidentities, List.getElem?_concat_length]
    rfl
  constructor
  · rintro ⟨transport', hcall, hok', hid'⟩
    obtain rfl := Call.ready.inj hcall
    obtain rfl := Except.ok.inj (hok'.symm.trans hok)
    exact ⟨rfl, Option.some.inj (hid'.symm.trans hid)⟩
  · rintro ⟨rfl, rfl⟩
    exact ⟨transport, rfl, hok, hid⟩

/-- An id was accepted and not removed since. -/
def Present (s : Server C P) (calls : List (Call P)) (seat : Seat) (id : ConnectionId) : Prop :=
  ∃ later, s.Accepts calls seat id later ∧ .remove id ∉ later

/-- An id was accepted and removed since. -/
def Departed (s : Server C P) (calls : List (Call P)) (seat : Seat) (id : ConnectionId) : Prop :=
  ∃ later, s.Accepts calls seat id later ∧ .remove id ∈ later

theorem accepts_concat {s : Server C P} {calls : List (Call P)} {call : Call P} {seat : Seat}
    {id : ConnectionId} {later : List (Call P)} :
    s.Accepts (calls ++ [call]) seat id later ↔
      (∃ later', later = later' ++ [call] ∧ s.Accepts calls seat id later') ∨
      later = [] ∧ (s.after calls).AcceptsBy call seat id := by
  constructor
  · rintro ⟨before, transport, hcalls, haccepted⟩
    rcases List.eq_nil_or_concat later with rfl | ⟨later', last, rfl⟩
    · obtain ⟨rfl, hcall⟩ := List.append_inj' hcalls rfl
      exact .inr ⟨rfl, transport, (List.cons.inj hcall).1, haccepted⟩
    · rw [List.concat_eq_append, ← List.cons_append, ← List.append_assoc] at hcalls
      obtain ⟨rfl, hcall⟩ := List.append_inj' hcalls rfl
      rw [List.concat_eq_append, (List.cons.inj hcall).1]
      exact .inl ⟨later', rfl, before, transport, rfl, haccepted⟩
  · rintro (⟨later', rfl, before, transport, rfl, haccepted⟩ | ⟨rfl, transport, rfl, haccepted⟩)
    · exact ⟨before, transport, by simp, haccepted⟩
    · exact ⟨calls, transport, rfl, haccepted⟩

theorem present_concat {s : Server C P} {calls : List (Call P)} {call : Call P} {seat : Seat}
    {id : ConnectionId} : s.Present (calls ++ [call]) seat id ↔
      s.Present calls seat id ∧ call ≠ .remove id ∨ (s.after calls).AcceptsBy call seat id := by
  constructor
  · rintro ⟨later, haccepts, hkept⟩
    rcases accepts_concat.mp haccepts with ⟨later', rfl, hearlier⟩ | ⟨-, hnow⟩
    · simp only [List.mem_append, List.mem_singleton, not_or] at hkept
      exact .inl ⟨⟨later', hearlier, hkept.1⟩, Ne.symm hkept.2⟩
    · exact .inr hnow
  · rintro (⟨⟨later, haccepts, hkept⟩, hcall⟩ | hnow)
    · refine ⟨_, accepts_concat.mpr (.inl ⟨later, rfl, haccepts⟩), ?_⟩
      simp only [List.mem_append, List.mem_singleton, not_or]
      exact ⟨hkept, Ne.symm hcall⟩
    · exact ⟨[], accepts_concat.mpr (.inr ⟨rfl, hnow⟩), List.not_mem_nil⟩

theorem departed_concat {s : Server C P} {calls : List (Call P)} {call : Call P} {seat : Seat}
    {id : ConnectionId} : s.Departed (calls ++ [call]) seat id ↔
      s.Departed calls seat id ∨ s.Present calls seat id ∧ call = .remove id := by
  constructor
  · rintro ⟨later, haccepts, hgone⟩
    rcases accepts_concat.mp haccepts with ⟨later', rfl, hearlier⟩ | ⟨rfl, -⟩
    · by_cases hbefore : .remove id ∈ later'
      · exact .inl ⟨later', hearlier, hbefore⟩
      · simp only [List.mem_append, List.mem_singleton] at hgone
        exact .inr ⟨⟨later', hearlier, hbefore⟩, (hgone.resolve_left hbefore).symm⟩
    · cases hgone
  · rintro (⟨later, haccepts, hgone⟩ | ⟨⟨later, haccepts, -⟩, rfl⟩)
    · exact ⟨_, accepts_concat.mpr (.inl ⟨later, rfl, haccepts⟩), List.mem_append_left _ hgone⟩
    · exact ⟨_, accepts_concat.mpr (.inl ⟨later, rfl, haccepts⟩), by simp⟩

/-- Whoever was accepted is present or has departed. -/
theorem Accepts.present_or_departed {s : Server C P} {calls later : List (Call P)} {seat : Seat}
    {id : ConnectionId} (h : s.Accepts calls seat id later) :
    s.Present calls seat id ∨ s.Departed calls seat id := by
  by_cases hgone : .remove id ∈ later
  · exact .inr ⟨later, h, hgone⟩
  · exact .inl ⟨later, h, hgone⟩

theorem after_concat (s : Server C P) (calls : List (Call P)) (call : Call P) :
    s.after (calls ++ [call]) = (s.after calls).apply call := s.after_append calls [call]

theorem removed_concat (s : Server C P) (calls : List (Call P)) (call : Call P) :
    s.removed (calls ++ [call]) = s.removed calls ++ (s.after calls).removedBy call := by
  rw [removed_append, removed, removed, List.append_nil]

/-! ## What is kept -/

/-- The ids that were accepted and not removed since are registered. What was removed is what was
    accepted and removed since, it had the id of its seat, and it is not registered any more. -/
structure Kept (s : Server C P) (calls : List (Call P)) : Prop where
  sound : (s.after calls).Sound
  registered : ∀ id seat, (s.after calls).registry.member? id = some seat ↔ s.Present calls seat id
  removed : ∀ id seat, (id, seat) ∈ s.removed calls ↔ s.Departed calls seat id
  gone : ∀ id (seat : Nat), (id, seat) ∈ s.removed calls →
    (s.after calls).registry.member? id = none ∧ seat < (s.after calls).identities.length ∧
      id = UInt64.ofNat (seat + 1)
  once : ((s.removed calls).map Prod.fst).Nodup

/-- A call that accepts nobody and removes nobody. -/
theorem Kept.still {s : Server C P} {calls : List (Call P)} {call : Call P} (h : s.Kept calls)
    (haccepts : ∀ seat id, ¬(s.after calls).AcceptsBy call seat id)
    (hremove : ∀ id, call ≠ .remove id) (hsound : ((s.after calls).apply call).Sound)
    (hidentities : ((s.after calls).apply call).identities = (s.after calls).identities)
    (hmember : ∀ id, ((s.after calls).apply call).registry.member? id =
      (s.after calls).registry.member? id) : s.Kept (calls ++ [call]) := by
  have hremoved : s.removed (calls ++ [call]) = s.removed calls := by
    rw [removed_concat]
    cases call with
    | remove id => exact absurd rfl (hremove id)
    | _ => exact List.append_nil _
  refine ⟨?_, fun id seat => ?_, fun id seat => ?_, fun id seat hgone => ?_, ?_⟩
  · rw [after_concat]
    exact hsound
  · rw [after_concat, hmember, h.registered, present_concat, and_iff_left (hremove id),
      or_iff_left (haccepts seat id)]
  · rw [hremoved, h.removed, departed_concat, or_iff_left]
    exact fun hnow => hremove id hnow.2
  · rw [hremoved] at hgone
    rw [after_concat, hmember, hidentities]
    exact h.gone id seat hgone
  · rw [hremoved]
    exact h.once

/-- A session that is accepted. -/
theorem Kept.ready {s : Server C P} {calls : List (Call P)} (h : s.Kept calls)
    (hroom : (s.after calls).Roomy) (hrunning : (s.after calls).shuttingDown = false)
    (transport : Transport) : s.Kept (calls ++ [.ready transport]) := by
  obtain ⟨hsound, hfresh, hmember⟩ := h.sound.ready hroom hrunning transport
  obtain ⟨-, hidentities, -⟩ := h.sound.accepts hrunning transport
  have happly : s.after (calls ++ [.ready transport]) = ((s.after calls).onReady transport).2 :=
    s.after_concat calls _
  have hremoved : s.removed (calls ++ [.ready transport]) = s.removed calls := by
    rw [removed_concat]
    exact List.append_nil _
  refine ⟨?_, fun id seat => ?_, fun id seat => ?_, fun id seat hgone => ?_, ?_⟩
  · rw [happly]
    exact hsound
  · rw [happly, hmember, present_concat, h.sound.acceptsBy_iff hrunning, ← h.registered]
    constructor
    · intro hget
      split at hget
      · rename_i hsame
        exact .inr ⟨(Option.some.inj hget).symm, hsame.symm⟩
      · exact .inl ⟨hget, nofun⟩
    · rintro (⟨hget, -⟩ | ⟨rfl, rfl⟩)
      · rw [if_neg, hget]
        rintro rfl
        rw [hfresh] at hget
        cases hget
      · exact if_pos rfl
  · rw [hremoved, h.removed, departed_concat, or_iff_left]
    rintro ⟨-, hcall⟩
    cases hcall
  · rw [hremoved] at hgone
    obtain ⟨hnone, hlt, hid⟩ := h.gone id seat hgone
    rw [happly, hmember, hidentities, List.length_append, if_neg]
    · exact ⟨hnone, Nat.lt_add_right 1 hlt, hid⟩
    · rintro rfl
      exact h.sound.next_ne hroom hlt hid
  · rw [hremoved]
    exact h.once

/-- A removal, of an id that is registered or not. -/
theorem Kept.remove {s : Server C P} {calls : List (Call P)} (h : s.Kept calls)
    (id : ConnectionId) : s.Kept (calls ++ [.remove id]) := by
  obtain ⟨hsound, hanswer, hmember, -⟩ := h.sound.remove id
  have hbook := (s.after calls).sameBook_remove id
  have happly : s.after (calls ++ [.remove id]) = ((s.after calls).removeConnection id).2 :=
    s.after_concat calls _
  have haccepts (seat : Seat) (x : ConnectionId) :
      ¬(s.after calls).AcceptsBy (.remove id) seat x := by
    rintro ⟨transport, hcall, -⟩
    cases hcall
  have hremoved {x : ConnectionId} {seat : Seat} : (x, seat) ∈ s.removed (calls ++ [.remove id]) ↔
      (x, seat) ∈ s.removed calls ∨
        (s.after calls).registry.member? x = some seat ∧ Call.remove id = .remove (P := P) x := by
    rw [removed_concat, List.mem_append, removedBy, hanswer, Option.mem_toList,
      Option.map_eq_some_iff, Call.remove.injEq]
    refine or_congr .rfl ⟨?_, ?_⟩
    · rintro ⟨seat', hget, heq⟩
      obtain ⟨rfl, rfl⟩ := Prod.mk.inj heq
      exact ⟨hget, rfl⟩
    · rintro ⟨hget, rfl⟩
      exact ⟨seat, hget, rfl⟩
  refine ⟨?_, fun x seat => ?_, fun x seat => ?_, fun x seat hgone => ?_, ?_⟩
  · rw [happly]
    exact hsound
  · rw [happly, hmember, present_concat, or_iff_left (haccepts seat x), ← h.registered, ne_eq,
      Call.remove.injEq]
    split <;> simp [*]
  · rw [hremoved, h.removed, departed_concat, h.registered]
  · rw [happly, hmember, hbook.identities]
    rcases hremoved.mp hgone with hgone | ⟨hget, hcall⟩
    · obtain ⟨hnone, hseat⟩ := h.gone x seat hgone
      refine ⟨?_, hseat⟩
      split
      · rfl
      · exact hnone
    · exact ⟨if_pos (Call.remove.inj hcall), h.sound.registered x seat hget⟩
  · rw [removed_concat, removedBy, hanswer]
    cases hget : (s.after calls).registry.member? id with
    | none =>
      rw [Option.map_none, Option.toList_none, List.append_nil]
      exact h.once
    | some seat =>
      rw [Option.map_some, Option.toList_some, List.map_append, List.map_singleton]
      refine List.nodup_append.mpr ⟨h.once, by simp, ?_⟩
      rintro x hx y hy rfl
      obtain ⟨⟨_, seat'⟩, hgone, rfl⟩ := List.mem_map.mp hx
      obtain rfl := List.mem_singleton.mp hy
      rw [(h.gone _ seat' hgone).1] at hget
      cases hget

/-- Whatever the next call is, as long as there is room for one more id. -/
theorem Kept.concat {s : Server C P} {calls : List (Call P)} (h : s.Kept calls)
    (hroom : (s.after calls).Roomy) (call : Call P) : s.Kept (calls ++ [call]) := by
  by_cases hremove : ∃ id, call = .remove id
  · obtain ⟨id, rfl⟩ := hremove
    exact h.remove id
  · have hremove' : ∀ id, call ≠ .remove id := fun id hcall => hremove ⟨id, hcall⟩
    by_cases hready : ∃ transport, call = .ready transport
    · obtain ⟨transport, rfl⟩ := hready
      cases hrunning : (s.after calls).shuttingDown with
      | false => exact h.ready hroom hrunning transport
      | true =>
        have hrefused := onReady_of_shuttingDown hrunning transport
        have hsame : (s.after calls).apply (.ready transport) = s.after calls :=
          congrArg Prod.snd hrefused
        refine h.still ?_ hremove' (hsame.symm ▸ h.sound) (by rw [hsame]) fun id => by rw [hsame]
        rintro seat id ⟨transport', hcall, hok, -⟩
        obtain rfl := Call.ready.inj hcall
        rw [hrefused] at hok
        cases hok
    · have haccepts (seat : Seat) (id : ConnectionId) :
          ¬(s.after calls).AcceptsBy call seat id := by
        rintro ⟨transport, hcall, -⟩
        exact hready ⟨transport, hcall⟩
      obtain ⟨m, hm⟩ := h.sound.refines
      by_cases hstop : call = .stop
      · subst hstop
        obtain ⟨hbook, hregistry⟩ := (s.after calls).sameBook_closeAll
        have hmember : ∀ id, ((s.after calls).apply .stop).registry.member? id =
            (s.after calls).registry.member? id := fun id => by rw [apply, hregistry]
        exact h.still haccepts hremove' (h.sound.stop) hbook.identities hmember
      · obtain ⟨hbook, hmembers⟩ := (s.after calls).same_apply
          (fun transport hcall => hready ⟨transport, hcall⟩) hremove' hstop
        exact h.still haccepts hremove' (h.sound.same hbook hmembers) hbook.identities
          (hmembers m hm).2.1

/-! ## Whole runs -/

theorem opened_append (s : Server C P) (before after : List (Call P)) :
    s.opened (before ++ after) = s.opened before ++ (s.after before).opened after := by
  induction before generalizing s with
  | nil => rfl
  | cons call before ih =>
    rw [List.cons_append, opened, opened, ih, List.append_assoc, after_cons]

/-- As many connections as were accepted, if there was none before. -/
theorem length_identities_after {s : Server C P} (hnew : s.identities = [])
    (calls : List (Call P)) : (s.after calls).identities.length = (s.opened calls).length ∧
      s.opened calls = List.range (s.opened calls).length := by
  have hlives : s.lives.length = 0 := by
    rw [lives, List.length_map, ← List.length_map, ← identities, hnew, List.length_nil]
  have hopened := s.range_append_opened calls
  rw [hlives, List.range_zero, List.nil_append] at hopened
  have hlength : (s.after calls).lives.length = (s.opened calls).length := by
    rw [hopened, List.length_range]
  rw [hlength] at hopened
  refine ⟨?_, hopened⟩
  rw [← hlength, lives, identities, List.length_map, List.length_map]

theorem Kept.run {s : Server C P} (hnew : s.identities = []) {before : List (Call P)}
    (h : s.Kept before) (after : List (Call P))
    (hfew : (s.opened (before ++ after)).length + 1 < UInt64.size) : s.Kept (before ++ after) := by
  induction after generalizing before with
  | nil => rwa [List.append_nil]
  | cons call after ih =>
    have hroom : (s.after before).Roomy := by
      rw [opened_append, List.length_append] at hfew
      rw [Roomy, (length_identities_after hnew before).1]
      omega
    rw [List.append_cons] at hfew ⊢
    exact ih (h.concat hroom call) hfew

/-- No call changes how contexts are made, and none but a stop makes a server shut down. -/
theorem settings_apply (s : Server C P) (call : Call P) :
    (s.apply call).makeContext = s.makeContext ∧
      ((s.apply call).shuttingDown = true ↔ s.shuttingDown = true ∨ call = .stop) := by
  by_cases hstop : call = .stop
  · subst hstop
    obtain ⟨hbook, -⟩ := s.sameBook_closeAll
    have hstopped : s.closeAll.shuttingDown = true := hbook.shuttingDown
    refine ⟨hbook.makeContext, ?_⟩
    simp only [apply, hstopped, or_true]
  · rw [or_iff_left hstop]
    by_cases hremove : ∃ id, call = .remove id
    · obtain ⟨id, rfl⟩ := hremove
      have hbook := s.sameBook_remove id
      rw [apply, hbook.shuttingDown]
      exact ⟨hbook.makeContext, .rfl⟩
    · by_cases hready : ∃ transport, call = .ready transport
      · obtain ⟨transport, rfl⟩ := hready
        have hsame : (s.onReady transport).2.makeContext = s.makeContext ∧
            (s.onReady transport).2.shuttingDown = s.shuttingDown := by
          unfold onReady
          split
          · exact ⟨rfl, rfl⟩
          · dsimp only
            split <;> exact ⟨rfl, rfl⟩
        rw [apply, hsame.2]
        exact ⟨hsame.1, .rfl⟩
      · have hbook := (s.same_apply (fun transport hcall => hready ⟨transport, hcall⟩)
          (fun id hcall => hremove ⟨id, hcall⟩) hstop).1
        rw [hbook.shuttingDown]
        exact ⟨hbook.makeContext, .rfl⟩

theorem settings_after (s : Server C P) (calls : List (Call P)) :
    (s.after calls).makeContext = s.makeContext ∧
      ((s.after calls).shuttingDown = true ↔ s.shuttingDown = true ∨ .stop ∈ calls) := by
  induction calls generalizing s with
  | nil => simp [after]
  | cons call calls ih =>
    obtain ⟨hcontext, hstopped⟩ := ih (s.apply call)
    obtain ⟨hcontext', hstopped'⟩ := s.settings_apply call
    refine ⟨hcontext.trans hcontext', ?_⟩
    rw [after_cons, hstopped, hstopped', List.mem_cons, or_assoc, eq_comm (a := call)]

omit [Packet P] in
/-- A server that was just built has no connections, and everything is in order. -/
theorem sound_of_built {plan : ServerPlan C P} {s : Server C P} (h : plan.build = .ok s) :
    s.Sound ∧ s.identities = [] ∧ s.shuttingDown = false := by
  unfold ServerPlan.build at h
  split at h
  · cases h
  · cases h
  · rename_i codec makeContext _ _
    split at h
    · split at h
      · cases h
      · rename_i directory hconfigure
        obtain rfl := Except.ok.inj h
        obtain ⟨hregistry, hroster⟩ : directory.registry = (ShardRegistry.empty.call
            (.configure plan.shards)).2 ∧ directory.roster = {} := by
          rw [← (Prod.mk.inj hconfigure).2]
          exact ⟨rfl, rfl⟩
        have hinitial : Refines (ShardRegistry.empty (α := Seat)) .initial :=
          ShardRegistry.refines_initial
        have hafter := (hinitial.call (.configure plan.shards)).2
        have hnone (id : ConnectionId) : directory.registry.member? id = none := by
          rw [hregistry, hafter.member?, Assignment.call]
          split <;> rfl
        have hnew : directory.roster.connections.map (fun c => (c.id, c.context)) = [] := by
          rw [hroster]
          rfl
        refine ⟨⟨?_, fun seat who hwho => ?_, ?_, ⟨_, hregistry ▸ hafter⟩, fun id seat hid => ?_⟩,
          hnew, rfl⟩
        · rw [identities, hnew]
          rfl
        · rw [identities, hnew] at hwho
          cases hwho
        · rw [hregistry]
          exact hinitial.isSome_call _ ((hinitial.known _).mpr List.mem_cons_self)
        · rw [hnone] at hid
          cases hid
    · cases h

/-- Before any call nobody is registered. -/
theorem kept_nil {s : Server C P} (h : s.Sound) (hnew : s.identities = []) : s.Kept [] := by
  have hnobody (seat : Seat) (id : ConnectionId) (later : List (Call P)) :
      ¬s.Accepts [] seat id later := by
    rintro ⟨before, transport, hcalls, -⟩
    exact List.append_ne_nil_of_right_ne_nil before (List.cons_ne_nil _ later) hcalls.symm
  refine ⟨h, fun id seat => ⟨fun hget => ?_, ?_⟩, fun id seat => ⟨fun hgone => ?_, ?_⟩,
    fun id seat hgone => ?_, List.nodup_nil⟩
  · have hlt := (h.registered id seat hget).1
    rw [hnew] at hlt
    cases hlt
  · rintro ⟨later, haccepts, -⟩
    exact absurd haccepts (hnobody seat id later)
  · cases hgone
  · rintro ⟨later, haccepts, -⟩
    exact absurd haccepts (hnobody seat id later)
  · cases hgone

/-- Whatever is done with a new server, in whatever order, as long as fewer sessions are accepted than
    there are ids: each session that is accepted gets the next seat, and the id that is one more than
    the seat, and the context that was made for it. The registered ids are those that were accepted and
    not removed since, each with its own connection. What removals answer with is what was accepted and
    removed since, each id once, and its transport is closed. A session that begins is accepted unless
    the server was stopped; then its transport is closed and the server is as before. -/
theorem ids_in_order_of_acceptance {plan : ServerPlan C P} {s : Server C P}
    (hbuild : plan.build = .ok s) (calls : List (Call P))
    (hfew : (s.opened calls).length < UInt64.size - 1) :
    let now := s.after calls
    s.opened calls = List.range (s.opened calls).length ∧
    (∀ seat ∈ s.opened calls, ∃ c id, now.roster.get? seat = some c ∧ c.id = some id ∧
      id.toNat = seat + 1 ∧ c.context = s.makeContext seat) ∧
    (∀ seat id later, s.Accepts calls seat id later → seat ∈ s.opened calls ∧ id.toNat = seat + 1) ∧
    (∀ id, (now.registry.shardOf id).isSome ↔ ∃ seat, s.Present calls seat id) ∧
    (∀ id seat, now.registry.member? id = some seat ↔ s.Present calls seat id) ∧
    (∀ id c, now.connection? id = some c → c.id = some id ∧
      c.context = s.makeContext (id.toNat - 1)) ∧
    (∀ id seat, (id, seat) ∈ s.removed calls ↔ s.Departed calls seat id) ∧
    ((s.removed calls).map Prod.fst).Nodup ∧
    (∀ id, (now.removeConnection id).1 = now.registry.member? id) ∧
    (∀ id seat, (now.removeConnection id).1 = some seat →
      ∃ c, (now.removeConnection id).2.roster.get? seat = some c ∧ c.id = some id ∧
        c.transport.closed = true) ∧
    (∀ transport, .stop ∉ calls → ∃ seat id, now.AcceptsBy (.ready transport) seat id) ∧
    ∀ transport, .stop ∈ calls →
      now.onReady transport = (.error (.connectionClosed, transport.close), now) := by
  intro now
  obtain ⟨hsound, hnew, hrunning⟩ := sound_of_built hbuild
  have hkept : s.Kept calls := (kept_nil hsound hnew).run hnew calls (by rw [List.nil_append]; omega)
  obtain ⟨hlength, hrange⟩ := length_identities_after hnew calls
  obtain ⟨hcontext, hstopped⟩ := s.settings_after calls
  have hmem {seat : Nat} : seat ∈ s.opened calls ↔ seat < now.identities.length := by
    rw [hrange, List.mem_range, hlength]
  have hnumber {seat : Nat} (hseat : seat < now.identities.length) :
      (UInt64.ofNat (seat + 1)).toNat = seat + 1 := by
    have hroom : now.identities.length < UInt64.size := by rw [hlength]; omega
    exact UInt64.toNat_ofNat_of_lt' (Nat.lt_of_le_of_lt hseat hroom)
  have hpresent {id : ConnectionId} {seat : Nat} (h : now.registry.member? id = some seat) :
      seat < now.identities.length ∧ id = UInt64.ofNat (seat + 1) := hkept.sound.registered id seat h
  refine ⟨hrange, fun seat hseat => ?_, fun seat id later haccepts => ?_, fun id => ?_,
    hkept.registered, fun id c hc => ?_, hkept.removed, hkept.once,
    fun id => (hkept.sound.remove id).2.1, fun id seat hanswer => ?_,
    fun transport hstop => ?_, fun transport hstop => ?_⟩
  · obtain ⟨c, hc, hid, hcontext'⟩ := hkept.sound.connection (hmem.mp hseat)
    exact ⟨c, _, hc, hid, hnumber (hmem.mp hseat), hcontext'.trans (congrFun hcontext seat)⟩
  · obtain ⟨hseat, rfl⟩ : seat < now.identities.length ∧ id = UInt64.ofNat (seat + 1) := by
      rcases haccepts.present_or_departed with h | h
      · exact hpresent ((hkept.registered id seat).mpr h)
      · exact (hkept.gone id seat ((hkept.removed id seat).mpr h)).2
    exact ⟨hmem.mpr hseat, hnumber hseat⟩
  · obtain ⟨m, hm⟩ := hkept.sound.refines
    have hsome : (now.registry.shardOf id).isSome = (now.registry.member? id).isSome := by
      rw [hm.member?, ShardRegistry.shardOf, hm.index, Option.isSome_map, Option.isSome_map]
    rw [hsome, Option.isSome_iff_exists]
    exact exists_congr (hkept.registered id)
  · obtain ⟨seat, hseat, hc'⟩ := Option.bind_eq_some_iff.mp hc
    obtain ⟨hlt, rfl⟩ := hpresent hseat
    obtain ⟨c', hget, hid, hcontext'⟩ := hkept.sound.connection hlt
    obtain rfl := Option.some.inj (hc'.symm.trans hget)
    refine ⟨hid, ?_⟩
    rw [hnumber hlt, Nat.add_sub_cancel, hcontext', hcontext]
  · obtain ⟨-, hmember, -, hroster⟩ := hkept.sound.remove id
    rw [hmember] at hanswer
    obtain ⟨hlt, rfl⟩ := hpresent hanswer
    obtain ⟨c, hget, hid, -⟩ := hkept.sound.connection hlt
    refine ⟨c.close, ?_, hid, rfl⟩
    rw [hroster seat hanswer, Roster.get?, Roster.modify, List.getElem?_modify_eq]
    exact congrArg (Option.map (·.close)) hget
  · have hopen : now.shuttingDown = false := by
      rw [← Bool.not_eq_true, hstopped, hrunning]
      simpa using hstop
    exact ⟨_, _, (hkept.sound.acceptsBy_iff hopen).mpr ⟨rfl, rfl⟩⟩
  · exact onReady_of_shuttingDown (hstopped.mpr (.inr hstop)) transport

/-- Two sessions are accepted, the first is removed and the second moved, and the server is stopped. A
    removal before the first session does no harm, and a second one finds nothing. -/
theorem ids_of_two_sessions :
    let plan : ServerPlan Nat Ping :=
      { codec := some (.ofRegistry ⟨[⟨0⟩]⟩), makeContext := some fun n => n + 10 }
    let later : List (Call Ping) := [.remove 1, .assign 2 7, .stop, .ready {}, .remove 1]
    let calls := .remove 1 :: .ready {} :: .ready {} :: later
    ∃ s, plan.build = .ok s ∧ (s.opened calls).length < UInt64.size - 1 ∧ s.removed calls = [(1, 0)] ∧
      s.Departed calls 0 1 ∧ s.Present calls 1 2 ∧
      (∃ c, (s.after calls).roster.get? 1 = some c ∧ c.id = some 2 ∧ c.context = 11) ∧
      (s.after calls).onReady {} =
        (.error (.connectionClosed, Transport.close {}), s.after calls) := by
  intro plan later calls
  let s : Server Nat Ping :=
    { hub := { codec := .ofRegistry ⟨[⟨0⟩]⟩ }, config := {}, makeContext := fun n => n + 10 }
  have hbuild : plan.build = .ok s := by
    have hconfig : ({} : ServerConfig).complaints = [] := by decide
    have hgood : ShardMap.complaints Dict.empty = [] := by decide +kernel
    have howned : ShardMap.owned Dict.empty = [] := by
      simp [ShardMap.owned, ShardMap.ascending, Dict.empty]
    have htable : ShardTable.build Dict.empty = .ok ShardTable.empty := by
      rw [ShardTable.build, hgood, howned, sortByFirst, List.mergeSort_nil]
      rfl
    unfold ServerPlan.build
    simp only [plan, hconfig, Directory.configure, ShardRegistry.configure, htable]
    rfl
  have hopened : s.opened calls = [0, 1] := by decide +kernel
  have hfew : (s.opened calls).length < UInt64.size - 1 := by
    rw [hopened]
    decide
  have hremoved : s.removed calls = [(1, 0)] := by decide +kernel
  have hmember : (s.after calls).registry.member? 2 = some 1 := by decide +kernel
  obtain ⟨-, hseats, -, -, hpresent, -, hdeparted, -, -, -, -, hrefused⟩ :=
    ids_in_order_of_acceptance hbuild calls hfew
  obtain ⟨c, id, hget, hid, hnumber, hcontext⟩ := hseats 1 (by rw [hopened]; decide)
  refine ⟨s, hbuild, hfew, hremoved, (hdeparted 1 0).mp (by rw [hremoved]; decide),
    (hpresent 2 1).mp hmember, ⟨c, hget, ?_, hcontext⟩, hrefused {} (by simp [calls, later])⟩
  obtain rfl : id = 2 := UInt64.toNat_inj.mp hnumber
  exact hid

end ShardMesh.Server
