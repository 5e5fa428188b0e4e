import Mathlib.Data.List.Nodup
import ShardMesh.Proofs.Shard.Broadcast
import ShardMesh.Proofs.Shard.Registry
import ShardMesh.Proofs.Shard.Table

/-!
# Who gets a broadcast

A broadcast comes once to every registered id of the shards that it goes to, in some order. In its turn
a connection gets one frame of the packet if it is active, passes the test and sending succeeds, and
otherwise stays as it is. What becomes of a turn makes no difference to the connections of other turns
(`Roster.exists_turns`), and nobody else is touched.
-/

namespace ShardMesh

variable {C P : Type} [Packet P]

/-! ## A turn -/

namespace Roster

/-- A broadcast comes to a registered id. -/
structure Turn (P : Type) where
  id : ConnectionId
  seat : Seat
  /-- The hub at that time. -/
  hub : Hub P
  /-- The frame that the connection gets, if it gets one. -/
  frame : Option Bytes

/-- The frames that a seat gets in some turns. -/
def framesTo (seat : Seat) (turns : List (Turn P)) : List Bytes :=
  turns.filterMap fun turn => if turn.seat = seat then turn.frame else none

/-- A connection gets a frame that the codec makes of the packet, provided that it is active, passes the
    test and sending succeeds. -/
def Serves (keep : Connection C → Bool) (packet : P) (hub : Hub P) (c : Connection C)
    (frame : Bytes) : Prop :=
  c.active = true ∧ keep c = true ∧ (c.send hub packet).1 = .ok () ∧
    (hub.encode packet).1 = .ok frame

/-- What happens at a turn, when some turns have been before: the codec has encoded the packet at most
    once for each of these, and the connection, which has got its frames of these turns, gets a frame
    exactly if it is to be served. -/
structure Fair (keep : Connection C → Bool) (packet : P) (r : Roster C) (hub : Hub P)
    (before : List (Turn P)) (turn : Turn P) : Prop where
  codec : ∃ n ≤ before.length,
    turn.hub.codec = hub.codec.afterEncoding (List.replicate n packet)
  frame : ∀ frame, turn.frame = some frame ↔ ∃ c, r.get? turn.seat = some c ∧
    Serves keep packet turn.hub (c.traded 0 0 (framesTo turn.seat before)) frame

omit [Packet P] in
theorem framesTo_cons (seat : Seat) (turn : Turn P) (turns : List (Turn P)) :
    framesTo seat (turn :: turns) =
      (if turn.seat = seat then turn.frame.toList else []) ++ framesTo seat turns := by
  unfold framesTo
  by_cases h : turn.seat = seat
  · cases hframe : turn.frame <;> simp [h, hframe]
  · simp [h]

/-- The first turn of a broadcast, after which it goes on with the other seats: no connection changes
    but the one on the seat, which may get a frame. -/
theorem exists_turn (keep : Connection C → Bool) (packet : P) (seat : Seat) (seats : List Seat)
    (r : Roster C) (hub : Hub P) :
    ∃ (frame : Option Bytes) (r' : Roster C) (hub' : Hub P),
      broadcast keep packet (seat :: seats) r hub =
        (frame.toList.length + (broadcast keep packet seats r' hub').1,
          (broadcast keep packet seats r' hub').2) ∧
      (∀ other, r'.get? other =
        (r.get? other).map (·.traded 0 0 (if seat = other then frame.toList else []))) ∧
      (hub'.codec = hub.codec ∨ hub'.codec = (hub.codec.encode packet).2) ∧
      ∀ f, frame = some f ↔ ∃ c, r.get? seat = some c ∧ Serves keep packet hub c f := by
  have hsame (other : Seat) :
      r.get? other = (r.get? other).map (·.traded 0 0 (if seat = other then [] else [])) := by
    simp
  by_cases hc : ∃ c, r.get? seat = some c ∧ (c.active && keep c) = true
  · obtain ⟨c, hc, hkeep⟩ := hc
    obtain ⟨hactive, hkept⟩ := Bool.and_eq_true_iff.mp hkeep
    obtain ⟨hcases, hcodec⟩ := c.send_cases hactive hub packet
    rcases hcases with ⟨frame, hframe, hok, hafter⟩ | ⟨⟨e, herror⟩, hafter⟩
    · refine ⟨some frame, r.set seat (c.send hub packet).2.1, (c.send hub packet).2.2, ?_, ?_,
        .inr hcodec, fun f => ?_⟩
      · have hsend : c.send hub packet =
            (.ok (), (c.send hub packet).2.1, (c.send hub packet).2.2) := by rw [← hok]
        rw [broadcast, hc]
        dsimp only
        rw [if_pos hkeep, hsend]
        exact Prod.ext (Nat.add_comm ..) rfl
      · intro other
        by_cases hother : seat = other
        · subst hother
          rw [Server.get?_set hc, hc, hafter, if_pos rfl]
          rfl
        · rw [get?_set_ne r hother, if_neg hother]
          simp
      · constructor
        · intro hf
          exact ⟨c, hc, hactive, hkept, hok, by rw [hframe, Option.some.inj hf]⟩
        · rintro ⟨c', hc', -, -, -, hf⟩
          rw [hframe] at hf
          exact congrArg some (Except.ok.inj hf)
    · refine ⟨none, r.set seat (c.send hub packet).2.1, (c.send hub packet).2.2, ?_, ?_,
        .inr hcodec, fun f => ?_⟩
      · have hsend : c.send hub packet =
            (.error e, (c.send hub packet).2.1, (c.send hub packet).2.2) := by rw [← herror]
        rw [broadcast, hc]
        dsimp only
        rw [if_pos hkeep, hsend]
        exact Prod.ext (Nat.zero_add _).symm rfl
      · intro other
        by_cases hother : seat = other
        · subst hother
          rw [Server.get?_set hc, hc, hafter]
          simp
        · rw [get?_set_ne r hother]
          simp
      · constructor
        · intro hf
          cases hf
        · rintro ⟨c', hc', -, -, hok, -⟩
          rw [hc] at hc'
          cases hc'
          rw [herror] at hok
          cases hok
  · refine ⟨none, r, hub, ?_, hsame, .inl rfl, fun f => ?_⟩
    · rw [broadcast_cons_of_idle fun c hget => Bool.eq_false_iff.mpr fun h => hc ⟨c, hget, h⟩]
      exact Prod.ext (Nat.zero_add _).symm rfl
    · constructor
      · intro hf
        cases hf
      · rintro ⟨c, hget, hactive, hkept, -⟩
        exact absurd ⟨c, hget, by rw [hactive, hkept]; rfl⟩ hc

/-- What is fair after a turn is fair when this turn counts among those before. -/
theorem Fair.cons {keep : Connection C → Bool} {packet : P} {r r' : Roster C} {hub hub' : Hub P}
    {first turn : Turn P} {before : List (Turn P)}
    (hroster : ∀ other, r'.get? other =
      (r.get? other).map (·.traded 0 0 (if first.seat = other then first.frame.toList else [])))
    (hcodec : hub'.codec = hub.codec ∨ hub'.codec = (hub.codec.encode packet).2)
    (h : Fair keep packet r' hub' before turn) : Fair keep packet r hub (first :: before) turn := by
  constructor
  · obtain ⟨n, hn, hturn⟩ := h.codec
    rcases hcodec with hcodec | hcodec
    · exact ⟨n, Nat.le_succ_of_le hn, by rw [hturn, hcodec]⟩
    · refine ⟨n + 1, Nat.succ_le_succ hn, ?_⟩
      rw [hturn, hcodec, List.replicate_succ]
      rfl
  · intro frame
    rw [h.frame, framesTo_cons, hroster]
    cases hc : r.get? turn.seat with
    | none => simp
    | some c => simp [Connection.traded_traded]

/-- A broadcast over a row of ids has a fair turn for each. It adds to every connection the frames of
    its turns, and counts the frames. -/
theorem exists_turns (keep : Connection C → Bool) (packet : P) (row : List (ConnectionId × Seat))
    (r : Roster C) (hub : Hub P) :
    ∃ turns : List (Turn P), turns.map (fun turn => (turn.id, turn.seat)) = row ∧
      (∀ before turn after, turns = before ++ turn :: after →
        Fair keep packet r hub before turn) ∧
      (∀ seat, (broadcast keep packet (row.map Prod.snd) r hub).2.1.get? seat =
        (r.get? seat).map (·.traded 0 0 (framesTo seat turns))) ∧
      (broadcast keep packet (row.map Prod.snd) r hub).1 =
        (turns.filterMap (·.frame)).length := by
  induction row generalizing r hub with
  | nil =>
    refine ⟨[], rfl, fun before turn after h => ?_, fun seat => ?_, rfl⟩
    · cases List.append_ne_nil_of_right_ne_nil before (List.cons_ne_nil turn after) h.symm
    · simp [broadcast, framesTo]
  | cons entry row ih =>
    obtain ⟨id, seat⟩ := entry
    obtain ⟨frame, r', hub', hbroadcast, hroster, hcodec, hframe⟩ :=
      exists_turn keep packet seat (row.map Prod.snd) r hub
    obtain ⟨turns, hrow, hfair, hget, hcount⟩ := ih r' hub'
    let first : Turn P := ⟨id, seat, hub, frame⟩
    refine ⟨first :: turns, ?_, fun before turn after h => ?_, fun other => ?_, ?_⟩
    · rw [List.map_cons, hrow]
    · cases before with
      | nil =>
        obtain ⟨rfl, -⟩ := List.cons.inj h
        exact ⟨⟨0, Nat.le_refl 0, rfl⟩, by simpa [framesTo] using hframe⟩
      | cons b before =>
        obtain ⟨rfl, hturns⟩ := List.cons.inj h
        exact (hfair before turn after hturns).cons hroster hcodec
    · rw [List.map_cons, hbroadcast, hget, hroster, framesTo_cons, Option.map_map]
      refine congrArg (Option.map · (r.get? other)) (funext fun c => ?_)
      rw [Function.comp_apply, Connection.traded_traded]
    · rw [List.map_cons, hbroadcast, hcount]
      cases frame <;> simp [first, Nat.add_comm]

end Roster

/-! ## Whom a broadcast comes to -/

/-- A broadcast to a shard goes to this shard; without a shard it goes to all. -/
def Targets (shard : Option ShardId) (s : ShardId) : Prop := ∀ target ∈ shard, target = s

namespace ShardRegistry

variable {α : Type}

/-- Whom a broadcast addresses are the members of the shards that it goes to, each under its id. -/
theorem Refines.exists_audience {r : ShardRegistry α} {m : Assignment α} (h : Refines r m)
    (shard : Option ShardId) :
    ∃ row : List (ConnectionId × α), row.map Prod.snd = r.audience shard ∧
      (row.map Prod.fst).Nodup ∧
      ∀ id member, (id, member) ∈ row ↔
        ∃ s, Targets shard s ∧ m.placed.get? id = some (s, member) := by
  cases shard with
  | some s =>
    have hmember (id : ConnectionId) (member : α) :
        (∃ t, Targets (some s) t ∧ m.placed.get? id = some (t, member)) ↔
          r.memberIn s id = some member := by
      rw [h.member]
      constructor
      · rintro ⟨t, ht, hget⟩
        rwa [ht s rfl]
      · intro hget
        exact ⟨s, fun target htarget => (Option.some.inj htarget).symm, hget⟩
    simp only [hmember, audience, membersIn, memberIn]
    cases hset : r.shards.get? s with
    | none => exact ⟨[], rfl, List.nodup_nil, by simp⟩
    | some set => exact ⟨set.entries, rfl, set.nodup, fun id member => Dict.mem_entries⟩
  | none =>
    have hin {shard : ShardId} {set : Dict ConnectionId α} (hset : (shard, set) ∈ r.shards.entries)
        (id : ConnectionId) (member : α) :
        (id, member) ∈ set.entries ↔ m.placed.get? id = some (shard, member) := by
      rw [← h.member, memberIn, Dict.mem_entries.mp hset, Dict.mem_entries]
      rfl
    refine ⟨r.shards.entries.flatMap fun e => e.2.entries, ?_, ?_, fun id member => ?_⟩
    · simp only [audience, Dict.values, List.map_flatMap, List.flatMap_map]
    · rw [List.map_flatMap, List.nodup_flatMap]
      refine ⟨fun e _ => e.2.nodup, ?_⟩
      have hshards := List.pairwise_map.mp r.shards.nodup
      -- an id in the sets of two shards would be bound to both
      refine hshards.imp_of_mem fun {a b} ha hb hne id hida hidb => ?_
      obtain ⟨⟨_, x⟩, hx, rfl⟩ := List.mem_map.mp hida
      obtain ⟨⟨id, y⟩, hy, rfl⟩ := List.mem_map.mp hidb
      have hboth := ((hin ha _ x).mp hx).symm.trans ((hin hb _ y).mp hy)
      exact hne (Prod.mk.inj (Option.some.inj hboth)).1
    · rw [List.mem_flatMap]
      constructor
      · rintro ⟨⟨s, set⟩, hset, hmem⟩
        exact ⟨s, by simp [Targets], (hin hset id member).mp hmem⟩
      · rintro ⟨s, -, hget⟩
        obtain ⟨set, hset, hmem⟩ := Option.bind_eq_some_iff.mp ((h.member s id member).mpr hget)
        exact ⟨(s, set), Dict.mem_entries.mpr hset, Dict.mem_entries.mpr hmem⟩

end ShardRegistry

/-- A row in another order, of which one part is given, is a row of whole entries in this order. -/
theorem exists_perm_of_map {α β : Type} {f : α → β} {row : List α} {order : List β}
    (h : order.Perm (row.map f)) : ∃ row' : List α, row'.Perm row ∧ row'.map f = order := by
  induction order generalizing row with
  | nil =>
    rw [List.nil_perm, List.map_eq_nil_iff] at h
    exact ⟨[], by rw [h], rfl⟩
  | cons b order ih =>
    obtain ⟨a, ha, rfl⟩ := List.mem_map.mp (h.subset List.mem_cons_self)
    obtain ⟨first, rest, rfl⟩ := List.append_of_mem ha
    have hfront : (first ++ a :: rest).Perm (a :: (first ++ rest)) := List.perm_middle
    obtain ⟨row', hperm, hmap⟩ := ih (List.Perm.cons_inv (h.trans (hfront.map f)))
    exact ⟨a :: row', (hperm.cons a).trans hfront.symm, by rw [List.map_cons, hmap]⟩

namespace Roster

omit [Packet P] in
/-- A connection that has one turn only gets nothing before it, and nothing after it. -/
theorem framesTo_of_sole {turns : List (Turn P)} (hids : (turns.map (·.id)).Nodup) {turn : Turn P}
    (hsole : ∀ other ∈ turns, other.seat = turn.seat → other.id = turn.id)
    {before after : List (Turn P)} (h : turns = before ++ turn :: after) :
    framesTo turn.seat before = [] ∧ framesTo turn.seat turns = turn.frame.toList := by
  subst h
  rw [List.map_append, List.map_cons, List.nodup_append, List.nodup_cons] at hids
  obtain ⟨-, ⟨hafter, -⟩, hbefore⟩ := hids
  have hnone (others : List (Turn P)) (hne : ∀ other ∈ others, other.seat ≠ turn.seat) :
      framesTo turn.seat others = [] := by
    refine List.filterMap_eq_nil_iff.mpr fun other hother => ?_
    rw [if_neg (hne other hother)]
  have hfirst : framesTo turn.seat before = [] := by
    refine hnone before fun other hother hseat => ?_
    have hid := hsole other (List.mem_append_left _ hother) hseat
    exact hbefore _ (List.mem_map_of_mem hother) _ List.mem_cons_self hid
  have hlast : framesTo turn.seat after = [] := by
    refine hnone after fun other hother hseat => ?_
    have hid := hsole other (List.mem_append_right _ (List.mem_cons_of_mem _ hother)) hseat
    exact hafter (hid ▸ List.mem_map_of_mem hother)
  have happend : framesTo turn.seat (before ++ turn :: after) =
      framesTo turn.seat before ++ framesTo turn.seat (turn :: after) := List.filterMap_append
  rw [happend, framesTo_cons, hfirst, hlast, if_pos rfl, List.append_nil]
  exact ⟨rfl, rfl⟩

end Roster

namespace Directory

open ShardRegistry (Call)
open Roster (Turn Fair Serves framesTo)

/-- After whatever calls on the registry, and in whatever order a broadcast comes to those whom it
    addresses, every registered id of the shards that it goes to has one turn, and nobody else has one. A
    connection gets the frames of its turns on top of its queue, counted, and is otherwise as before; so
    one that is registered once gets a frame of the packet if it is active, passes the test and sending
    succeeds, and nothing else. The answer is the number of frames. The broadcast of a directory is of
    this kind, and leaves the registry as it is. -/
theorem broadcast_serves_each_once (calls : List (Call Seat)) (roster : Roster C) (hub : Hub P)
    (packet : P) (shard : Option ShardId) (keep : Connection C → Bool) (order : List Seat)
    (horder : order.Perm ((runCalls ShardRegistry.call .empty calls).2.audience shard)) :
    let registry := (runCalls ShardRegistry.call .empty calls).2
    let d : Directory C P := { hub, roster, registry }
    let (n, roster', hub') := roster.broadcast keep packet order hub
    (∃ turns : List (Roster.Turn P), turns.map (·.seat) = order ∧
      (turns.map (·.id)).Nodup ∧
      (∀ id seat, (∃ turn ∈ turns, turn.id = id ∧ turn.seat = seat) ↔
        registry.member? id = some seat ∧ ∃ s, registry.shardOf id = some s ∧ Targets shard s) ∧
      (∀ before turn after, turns = before ++ turn :: after →
        Fair keep packet roster hub before turn) ∧
      (∀ seat, roster'.get? seat = (roster.get? seat).map (·.traded 0 0 (framesTo seat turns))) ∧
      (∀ turn ∈ turns, (∀ other ∈ turns, other.seat = turn.seat → other.id = turn.id) →
        framesTo turn.seat turns = turn.frame.toList ∧
        ∀ frame, turn.frame = some frame ↔
          ∃ c, roster.get? turn.seat = some c ∧ Serves keep packet turn.hub c frame) ∧
      n = (turns.filterMap (·.frame)).length) ∧
    (order = registry.audience shard →
      d.broadcast packet shard keep = (n, { d with roster := roster', hub := hub' })) := by
  intro registry d
  have h := (ShardRegistry.refines_initial.runCalls calls).2
  obtain ⟨row, haudience, hids, hrow⟩ := h.exists_audience shard
  rw [← haudience] at horder
  obtain ⟨row', hperm, rfl⟩ := exists_perm_of_map horder
  obtain ⟨turns, hturns, hfair, hget, hcount⟩ := Roster.exists_turns keep packet row' roster hub
  have hseats : turns.map (·.seat) = row'.map Prod.snd := by
    rw [← hturns, List.map_map]
    rfl
  have hturnIds : (turns.map (·.id)).Nodup := by
    have hfst : turns.map (·.id) = row'.map Prod.fst := by
      rw [← hturns, List.map_map]
      rfl
    rw [hfst]
    exact (hperm.map Prod.fst).nodup_iff.mpr hids
  refine ⟨⟨turns, hseats, hturnIds, fun id seat => ?_, hfair, hget, fun turn hturn hsole => ?_,
    hcount⟩, ?_⟩
  · have hmem : (∃ turn ∈ turns, turn.id = id ∧ turn.seat = seat) ↔ (id, seat) ∈ row' := by
      rw [← hturns, List.mem_map]
      simp only [Prod.mk.injEq]
    rw [hmem, hperm.mem_iff, hrow, h.member?, ShardRegistry.shardOf, h.index]
    constructor
    · rintro ⟨s, hs, hplaced⟩
      rw [hplaced]
      exact ⟨rfl, s, rfl, hs⟩
    · rintro ⟨hmember, s, hshard, hs⟩
      obtain ⟨⟨s', seat'⟩, hplaced, rfl⟩ := Option.map_eq_some_iff.mp hmember
      rw [hplaced] at hshard ⊢
      obtain rfl := Option.some.inj hshard
      exact ⟨s', hs, rfl⟩
  · obtain ⟨before, after, happend⟩ := List.append_of_mem hturn
    obtain ⟨hbefore, hframes⟩ := Roster.framesTo_of_sole hturnIds hsole happend
    refine ⟨hframes, fun frame => ?_⟩
    simpa only [hbefore, Connection.traded_nil] using (hfair before turn after happend).frame frame
  · intro hsame
    rw [hsame]
    rfl

/-- Calls that register one seat under two ids, in two shards. -/
def registeringTwice : List (Call Seat) :=
  [.configure (Dict.ofList [(0, []), (1, [])]), .add 7 0 0, .add 8 1 1, .add 9 2 1,
    .add 10 0 unassignedShard, .move 9 0]

/-- One connection is closed, another one has ended, and a third is registered twice: the third gets two
    frames, and the others are as before. -/
theorem broadcast_serves_twice_registered :
    let registry := (runCalls ShardRegistry.call .empty registeringTwice).2
    let roster : Roster Nat := ⟨[{ id := some 7, context := 1 },
      { id := some 8, context := 2, transport := { closed := true } },
      { id := some 9, context := 3, active := false }]⟩
    let hub : Hub Ping := { codec := (Codec.ofRegistry ⟨[⟨0⟩]⟩).withScratchSize 8 }
    let sent := roster.broadcast (fun c => decide (c.context < 9)) (⟨5⟩ : Ping) [1, 2, 0, 0] hub
    [1, 2, 0, 0].Perm (registry.audience none) ∧ sent.1 = 2 ∧
      ∃ turns : List (Roster.Turn Ping), turns.map (·.seat) = [1, 2, 0, 0] ∧
        (turns.map (·.id)).Nodup ∧ (turns.filterMap (·.frame)).length = 2 ∧
        ∀ seat, sent.2.1.get? seat = (roster.get? seat).map (·.traded 0 0 (framesTo seat turns)) := by
  have haudience : (runCalls ShardRegistry.call .empty registeringTwice).2.audience none =
      [0, 0, 2, 1] := by
    let map : ShardMap := Dict.ofList [(0, []), (1, [])]
    have htable := (ShardTable.build_eq_ok_iff map.ascending_perm).mpr
      ⟨⟨by decide, by decide, .nil⟩, rfl⟩
    simp only [registeringTwice, runCalls, ShardRegistry.call, ShardRegistry.configure]
    rw [htable]
    decide +kernel
  intro registry roster hub sent
  have horder : [1, 2, 0, 0].Perm (registry.audience none) := by
    rw [haudience]
    decide
  have hsent : sent.1 = 2 := by rfl
  obtain ⟨⟨turns, hseats, hids, -, -, hget, -, hcount⟩, -⟩ :=
    broadcast_serves_each_once registeringTwice roster hub (⟨5⟩ : Ping) none
      (fun c => decide (c.context < 9)) [1, 2, 0, 0] horder
  exact ⟨horder, hsent, turns, hseats, hids, hcount.symm.trans hsent, hget⟩

end Directory
end ShardMesh
