import Mathlib.Data.List.Nodup
import ShardMesh.Proofs.Shard.Broadcast
import ShardMesh.Proofs.Shard.Moving

/-!
# A broadcast beside a move

A broadcast to all shards collects their sets, in some order, and then looks at one set after the
other. A move of a member between two shards may take its steps at any time in between. That the
member is copied before it leaves does not mean that the broadcast sees it: the broadcast misses it
exactly if it looks at the target before the member is there, and at the source after it has left. If
it comes to the source first, it sees the member at least once, and at most twice.
-/

namespace ShardMesh

open ShardRegistry (Refines)

/-- What a broadcast has seen of one set. -/
structure Glance (α : Type) where
  shard : ShardId
  /-- How far the move had come. -/
  stage : Relocation.Stage
  members : Dict ConnectionId α

/-- Whether a member under an id was seen. -/
def Glance.sees {α : Type} (g : Glance α) (id : ConnectionId) : Bool := g.members.contains id

/-- A broadcast to all shards beside a move. -/
structure Race (α : Type) where
  registry : ShardRegistry α
  stage : Relocation.Stage := .begun
  /-- The sets that are still to be looked at, once they are collected. -/
  ahead : Option (List ShardId) := none
  glances : List (Glance α) := []

namespace Race

/-- What may happen next. -/
inductive Turn where
  /-- The move takes a step. -/
  | move
  /-- The broadcast collects the sets of all shards, which come in this order. -/
  | collect (order : List ShardId)
  /-- The broadcast looks at the next set. -/
  | look

variable {α : Type}

/-- What happens at a turn. Where it is not the time for something, nothing happens. -/
def turn (v : Relocation α) (x : Race α) : Turn → Race α
  | .move =>
    let (stage, registry) := v.step (x.stage, x.registry)
    { x with stage, registry }
  | .collect order =>
    if x.ahead.isNone && order.isPerm x.registry.shards.keys then { x with ahead := some order }
    else x
  | .look =>
    match x.ahead with
    | some (shard :: ahead) =>
      { x with
        ahead := some ahead
        glances := x.glances ++
          [⟨shard, x.stage, (x.registry.shards.get? shard).getD Dict.empty⟩] }
    | _ => x

/-- The race after some turns. -/
def run (v : Relocation α) (x : Race α) (turns : List Turn) : Race α := turns.foldl (turn v) x

/-- Whom the broadcast addresses: all whom it has seen. -/
def audience (x : Race α) : List α := x.glances.flatMap (·.members.values)

/-! ## Alone -/

theorem run_looks (v : Relocation α) {x : Race α} {shards : List ShardId}
    (h : x.ahead = some shards) :
    x.run v (List.replicate shards.length .look) =
      { x with
        ahead := some []
        glances := x.glances ++ shards.map fun shard =>
          ⟨shard, x.stage, (x.registry.shards.get? shard).getD Dict.empty⟩ } := by
  induction shards generalizing x with
  | nil =>
    rw [List.map_nil, List.append_nil, ← h]
    rfl
  | cons shard shards ih =>
    have hturn : x.turn v .look =
        { x with
          ahead := some shards
          glances := x.glances ++
            [⟨shard, x.stage, (x.registry.shards.get? shard).getD Dict.empty⟩] } := by
      rw [turn, h]
    rw [List.length_cons, List.replicate_succ, run, List.foldl_cons, hturn, ← run, ih rfl,
      List.map_cons, List.append_assoc, List.singleton_append]

/-- A broadcast during which nothing else happens addresses those whom a broadcast addresses. -/
theorem audience_of_looks (v : Relocation α) (r : ShardRegistry α) :
    (run v { registry := r }
      (.collect r.shards.keys :: List.replicate r.shards.keys.length .look)).audience =
        r.audience none := by
  have hcollect : turn v { registry := r } (.collect r.shards.keys) =
      { registry := r, ahead := some r.shards.keys } := by
    rw [turn, List.isPerm_iff.mpr (List.Perm.refl _)]
    rfl
  have hvalues : r.shards.keys.map r.shards.get? = r.shards.values.map some := Dict.map_get?_keys _
  rw [run, List.foldl_cons, hcollect, ← run, run_looks v rfl, audience, List.nil_append,
    List.flatMap_map, ShardRegistry.audience]
  calc r.shards.keys.flatMap (fun shard => ((r.shards.get? shard).getD Dict.empty).values)
      = (r.shards.keys.map r.shards.get?).flatMap (fun set => (set.getD Dict.empty).values) :=
        (List.flatMap_map r.shards.get? (fun set => (set.getD Dict.empty).values) _).symm
    _ = r.shards.values.flatMap (·.values) := by
        rw [hvalues, List.flatMap_map]
        rfl

/-! ## What is seen -/

/-- What is so at any time of a race that began with a registry. -/
structure Sound (v : Relocation α) (r : ShardRegistry α) (x : Race α) : Prop where
  reached : v.Reached r x.stage x.registry
  /-- Every set was seen as it was when the move had come as far. -/
  seen : ∀ g ∈ x.glances, ∃ r', v.Reached r g.stage r' ∧
    g.members = (r'.shards.get? g.shard).getD Dict.empty
  /-- A move does not go back. -/
  order : x.glances.Pairwise fun g g' => g'.stage = .begun → g.stage = .begun
  fresh : x.stage = .begun → ∀ g ∈ x.glances, g.stage = .begun
  /-- Every set of a shard is looked at once. -/
  collected : ∀ ahead, x.ahead = some ahead →
    (x.glances.map (·.shard) ++ ahead).Perm r.shards.keys
  idle : x.ahead = none → x.glances = []

theorem sound_start {v : Relocation α} {r : ShardRegistry α} (hv : v.Ready r)
    (halone : ∀ shard, shard ≠ v.source → r.memberIn shard v.id = none) :
    Sound v r { registry := r } :=
  ⟨hv.reached halone, nofun, .nil, fun _ => nofun, nofun, fun _ => rfl⟩

/-- A turn keeps what is so at any time. -/
theorem Sound.turn {v : Relocation α} {r : ShardRegistry α} {x : Race α} (hv : v.Ready r)
    (h : Sound v r x) (t : Turn) : Sound v r (x.turn v t) := by
  cases t with
  | move =>
    exact ⟨h.reached.step hv, h.seen, h.order, fun hbegun => absurd hbegun (v.step_ne_begun _),
      h.collected, h.idle⟩
  | collect order =>
    rw [Race.turn]
    split
    · rename_i htime
      obtain ⟨hidle, hperm⟩ := (Bool.and_eq_true ..).mp htime
      refine ⟨h.reached, h.seen, h.order, h.fresh, fun ahead hahead => ?_, nofun⟩
      obtain rfl := Option.some.inj hahead
      show (x.glances.map (·.shard) ++ order).Perm r.shards.keys
      rw [h.idle (Option.isNone_iff_eq_none.mp hidle)]
      exact (List.isPerm_iff.mp hperm).trans (Dict.keys_perm h.reached.known)
    · exact h
  | look =>
    rw [Race.turn]
    split
    · rename_i shard ahead hahead
      refine ⟨h.reached, fun g hg => ?_, ?_, fun hbegun g hg => ?_, fun ahead' hahead' => ?_, nofun⟩
      · rcases List.mem_append.mp hg with hg | hg
        · exact h.seen g hg
        · rw [List.mem_singleton.mp hg]
          exact ⟨x.registry, h.reached, rfl⟩
      · refine List.pairwise_append.mpr ⟨h.order, List.pairwise_singleton _ _, fun g hg g' hg' => ?_⟩
        rw [List.mem_singleton.mp hg']
        exact fun hbegun => h.fresh hbegun g hg
      · rcases List.mem_append.mp hg with hg | hg
        · exact h.fresh hbegun g hg
        · rw [List.mem_singleton.mp hg]
          exact hbegun
      · obtain rfl := Option.some.inj hahead'
        have hcollected := h.collected _ hahead
        rw [List.map_append, List.append_assoc]
        exact hcollected
    · exact h

theorem Sound.run {v : Relocation α} {r : ShardRegistry α} {x : Race α} (hv : v.Ready r)
    (h : Sound v r x) (turns : List Turn) : Sound v r (x.run v turns) := by
  induction turns generalizing x with
  | nil => exact h
  | cons t turns ih => exact ih (h.turn hv t)

section Sound

variable {v : Relocation α} {r : ShardRegistry α} {x : Race α}

/-- The member was seen in the source before it had left, and in the target after it had come. -/
theorem Sound.sees_iff (h : Sound v r x) {g : Glance α} (hg : g ∈ x.glances) :
    g.sees v.id = true ↔
      g.shard = v.source ∧ g.stage.hasLeft = false ∨ g.shard = v.target ∧ g.stage ≠ .begun := by
  obtain ⟨r', hreached, hmembers⟩ := h.seen g hg
  rw [Glance.sees, Dict.contains, hmembers, ShardRegistry.get?_getD, hreached.member]
  split <;> simp [*]

/-- A broadcast that has looked at all sets has missed the member exactly if it came to the target
    too early and to the source too late. -/
theorem Sound.missed_iff (hv : v.Ready r) (h : Sound v r x) (hdone : x.ahead = some []) :
    (∀ g ∈ x.glances, g.sees v.id = false) ↔
      (∃ g ∈ x.glances, g.shard = v.target ∧ g.stage = .begun) ∧
        ∃ g ∈ x.glances, g.shard = v.source ∧ g.stage.hasLeft = true := by
  have hcollected := h.collected [] hdone
  rw [List.append_nil] at hcollected
  have hlooked {shard : ShardId} (hknown : (r.shards.get? shard).isSome) :
      ∃ g ∈ x.glances, g.shard = shard :=
    List.mem_map.mp (hcollected.mem_iff.mpr (Dict.mem_keys.mpr hknown))
  have honce {g g' : Glance α} (hg : g ∈ x.glances) (hg' : g' ∈ x.glances)
      (hsame : g.shard = g'.shard) : g = g' :=
    List.inj_on_of_nodup_map (hcollected.nodup_iff.mpr r.shards.nodup) hg hg' hsame
  constructor
  · intro hmissed
    obtain ⟨there, hthere, htarget⟩ := hlooked hv.known
    obtain ⟨here, hhere, hsource⟩ := hlooked hv.knownSource
    refine ⟨⟨there, hthere, htarget, ?_⟩, ⟨here, hhere, hsource, ?_⟩⟩
    · by_contra hlate
      exact Bool.eq_false_iff.mp (hmissed there hthere)
        ((h.sees_iff hthere).mpr (.inr ⟨htarget, hlate⟩))
    · by_contra hearly
      exact Bool.eq_false_iff.mp (hmissed here hhere)
        ((h.sees_iff hhere).mpr (.inl ⟨hsource, Bool.eq_false_iff.mpr hearly⟩))
  · rintro ⟨⟨there, hthere, htarget, hearly⟩, ⟨here, hhere, hsource, hlate⟩⟩ g hg
    refine Bool.eq_false_iff.mpr fun hsees => ?_
    rcases (h.sees_iff hg).mp hsees with ⟨hshard, hstage⟩ | ⟨hshard, hstage⟩
    · rw [honce hg hhere (hshard.trans hsource.symm), hlate] at hstage
      cases hstage
    · rw [honce hg hthere (hshard.trans htarget.symm)] at hstage
      exact hstage hearly

/-- A broadcast that comes to the source before it comes to the target sees the member. -/
theorem Sound.sees_of_source_first (h : Sound v r x)
    (hfirst : [v.source, v.target].Sublist (x.glances.map (·.shard))) :
    ∃ g ∈ x.glances, g.sees v.id = true := by
  obtain ⟨glances, hglances, hshards⟩ := List.sublist_map_iff.mp hfirst
  obtain ⟨here, rest, rfl, hsource, hrest⟩ := List.map_eq_cons_iff.mp hshards.symm
  obtain ⟨there, rfl, htarget⟩ := List.map_eq_singleton_iff.mp hrest
  have hhere : here ∈ x.glances := hglances.subset List.mem_cons_self
  have hthere : there ∈ x.glances := hglances.subset (List.mem_cons_of_mem _ List.mem_cons_self)
  by_cases hearly : there.stage = .begun
  · have hbegun : here.stage = .begun := List.pairwise_pair.mp (h.order.sublist hglances) hearly
    exact ⟨here, hhere, (h.sees_iff hhere).mpr (.inl ⟨hsource, by rw [hbegun]; rfl⟩)⟩
  · exact ⟨there, hthere, (h.sees_iff hthere).mpr (.inr ⟨htarget, hearly⟩)⟩

/-- The member is addressed as often as it was seen, if it is registered under no other id. -/
theorem Sound.count_audience [DecidableEq α] (h : Sound v r x)
    (hsole : ∀ shard id, r.memberIn shard id = some v.member → id = v.id) :
    x.audience.count v.member = x.glances.countP (·.sees v.id) := by
  have hglance : ∀ g ∈ x.glances,
      g.members.values.count v.member = if g.sees v.id = true then 1 else 0 := by
    intro g hg
    obtain ⟨r', hreached, hmembers⟩ := h.seen g hg
    have hget (id : ConnectionId) : g.members.get? id = r'.memberIn g.shard id := by
      rw [hmembers, ShardRegistry.get?_getD]
    have honly (id : ConnectionId) (hid : g.members.get? id = some v.member) : id = v.id := by
      by_contra hother
      rw [hget, hreached.others g.shard id hother] at hid
      exact hother (hsole g.shard id hid)
    rw [Dict.count_values honly, Glance.sees, Dict.contains, hget, hreached.member]
    split <;> simp
  rw [audience, List.count_flatMap]
  generalize x.glances = glances at hglance ⊢
  induction glances with
  | nil => rfl
  | cons g glances ih =>
    obtain ⟨hfirst, hrest⟩ := List.forall_mem_cons.mp hglance
    rw [List.map_cons, List.sum_cons, ih hrest, Function.comp_apply, hfirst, List.countP_cons,
      Nat.add_comm]

end Sound

end Race

namespace Directory

variable {C P : Type} [Packet P]

/-- A broadcast to all shards while a connection is moved from one shard to another, in any order of
    the sets and with the steps of the two in any order. The connection gets the packet once for every
    set in which the broadcast has seen it. It gets nothing exactly if the broadcast has looked at the
    target before the move put the connection there, and at the source after the move took it out. So
    it gets the packet if the broadcast comes to the source first. -/
theorem broadcast_misses_iff {d : Directory C P} {m : Assignment Seat} (h : Refines d.registry m)
    {id : ConnectionId} {source target : ShardId} {seat : Seat}
    (hplaced : m.placed.get? id = some (source, seat)) (hapart : source ≠ target)
    (hknown : target ∈ m.known)
    (hsole : ∀ other shard, m.placed.get? other = some (shard, seat) → other = id)
    {c : Connection C} (hc : d.roster.get? seat = some c) (hactive : c.active = true)
    (hopen : c.transport.isOpen = true) {packet : P} (himprints : Packet.Imprints packet)
    (huniform : d.hub.codec.scratch.Uniform) (hkey : d.hub.codec.cipher.HasKey) {frame : Bytes}
    (hframe : (d.hub.codec.encode packet).1 = .ok frame) (turns : List Race.Turn) :
    let race := Race.run ⟨id, source, target, seat⟩ { registry := d.registry } turns
    race.ahead = some [] →
      ∃ frames, (d.roster.broadcast (fun _ => true) packet race.audience d.hub).2.1.get? seat =
          some (c.traded 0 0 frames) ∧
        frames.length = race.glances.countP (·.sees id) ∧
        (∀ f ∈ frames, ∃ codec, d.hub.codec.Continues codec ∧ (codec.encode packet).1 = .ok f) ∧
        (frames = [] ↔
          (∃ g ∈ race.glances, g.shard = target ∧ g.stage = .begun) ∧
            ∃ g ∈ race.glances, g.shard = source ∧ g.stage.hasLeft = true) ∧
        ([source, target].Sublist (race.glances.map (·.shard)) → frames ≠ []) := by
  intro race hdone
  have hready : Relocation.Ready ⟨id, source, target, seat⟩ d.registry :=
    { index := by rw [h.index, hplaced]; rfl
      apart := hapart
      known := (h.known target).mpr hknown
      held := (h.member source id seat).mpr hplaced }
  have halone (shard : ShardId) (hshard : shard ≠ source) : d.registry.memberIn shard id = none := by
    refine Option.eq_none_iff_forall_ne_some.mpr fun member hmember => hshard ?_
    have hthere := (h.member shard id member).mp hmember
    rw [hplaced] at hthere
    exact (congrArg Prod.fst (Option.some.inj hthere)).symm
  have hsound : Race.Sound ⟨id, source, target, seat⟩ d.registry race :=
    (Race.sound_start hready halone).run hready turns
  obtain ⟨frames, hget, hcount, hall⟩ := Roster.broadcast_spec hc hactive hopen huniform
    (Codec.encodes_of_imprints huniform hkey himprints hframe) race.audience
  have hseen : frames.length = race.glances.countP (·.sees id) :=
    hcount.trans (hsound.count_audience fun shard other hother =>
      hsole other shard ((h.member shard other seat).mp hother))
  have hnothing : frames = [] ↔ ∀ g ∈ race.glances, g.sees id = false := by
    rw [← List.length_eq_zero_iff, hseen, List.countP_eq_zero]
    simp only [Bool.not_eq_true]
  refine ⟨frames, hget, hseen, hall, hnothing.trans (hsound.missed_iff hready hdone), fun hfirst => ?_⟩
  obtain ⟨g, hg, hsees⟩ := hsound.sees_of_source_first hfirst
  exact fun hnil => Bool.eq_false_iff.mp (hnothing.mp hnil g hg) hsees

/-- A node with one connection, in the first of two shards. -/
def withTwoShards : Directory Unit Ping :=
  { hub := { codec := Codec.withScratchSize (.ofRegistry ⟨[⟨0⟩]⟩) 16 }
    roster := ⟨[{ id := some 7, context := () }]⟩
    registry := (((ShardRegistry.empty.know 0).know 1).add 7 0 0).2 }

theorem refines_withTwoShards :
    Refines withTwoShards.registry ⟨[unassignedShard, 0, 1], Dict.empty.set 7 (0, 0)⟩ :=
  (ShardRegistry.call_add ((ShardRegistry.refines_initial.know 0).know 1) 7 0 0).2

/-- The move of the connection to the other shard. -/
def toSecondShard : Relocation Seat := ⟨7, 0, 1, 0⟩

/-- A broadcast that sees the connection before and after it was moved sends to it twice. -/
theorem broadcast_reaches_twice :
    let race := Race.run toSecondShard { registry := withTwoShards.registry }
      [.collect [0, 1, -1], .look, .move, .move, .move, .move, .look, .look]
    ∃ c frames, (withTwoShards.roster.broadcast (fun _ => true) (⟨5⟩ : Ping) race.audience
          withTwoShards.hub).2.1.get? 0 = some c ∧
      c.transport.queue = frames ∧ frames.length = 2 ∧
      ∀ f ∈ frames, ∃ codec, withTwoShards.hub.codec.Continues codec ∧
        (codec.encode (⟨5⟩ : Ping)).1 = .ok f := by
  intro race
  have hsole (other : ConnectionId) (shard : ShardId)
      (h : (Dict.empty.set 7 ((0 : ShardId), (0 : Seat))).get? other = some (shard, 0)) :
      other = 7 := by
    rw [Dict.get?_set] at h
    split at h
    · exact Eq.symm ‹_›
    · cases h
  have hframe : (withTwoShards.hub.codec.encode ⟨5⟩).1 = .ok [0, 8, 0, 0, 0, 0, 0, 0, 0, 0, 5] := by
    rfl
  have hapart : (0 : ShardId) ≠ 1 := by decide
  have hknown : (1 : ShardId) ∈ [unassignedShard, 0, 1] := by decide
  obtain ⟨frames, hget, hcount, hall, -, -⟩ := broadcast_misses_iff refines_withTwoShards
    (by rfl) hapart hknown hsole (by rfl) rfl rfl
    (Packet.asksWriter_of_fieldRow (⟨5⟩ : Ping)).imprints (BufferPool.uniform_ofSize _ _) trivial hframe
    [.collect [0, 1, -1], .look, .move, .move, .move, .move, .look, .look] (by rfl)
  exact ⟨_, frames, hget, rfl, hcount.trans (by decide), hall⟩

/-- A broadcast that looks at the target before the connection is moved there, and at the source after
    it was, misses it, although the connection is registered all the time, active and open, and the
    move succeeds. -/
theorem broadcast_misses_moved :
    let race := Race.run toSecondShard { registry := withTwoShards.registry }
      [.collect [1, -1, 0], .look, .move, .move, .move, .move, .look, .look]
    (∃ m, Refines withTwoShards.registry m) ∧
      withTwoShards.connection? 7 = some { id := some 7, context := () } ∧
      withTwoShards.registry.move 7 1 = (.ok true, race.registry) ∧
      race.stage = .moved ∧ race.ahead = some [] ∧ race.glances.length = 3 ∧
      (∀ g ∈ race.glances, g.sees 7 = false) ∧
      (withTwoShards.roster.broadcast (fun _ => true) (⟨5⟩ : Ping) race.audience
        withTwoShards.hub).1 = 0 := by
  refine ⟨⟨_, refines_withTwoShards⟩, by rfl, by rfl, by decide, by decide, by decide, by decide, by rfl⟩

end Directory
end ShardMesh
