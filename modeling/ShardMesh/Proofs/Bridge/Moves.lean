import ShardMesh.Bridge.Peering

/-!
# What happens to the links of a bridge

Whatever is done with a bridge, its links are touched in three ways only: a link is told something,
a new link is made for a peer that has none, and links are given up. All the rest goes on around
the links. So a statement about what can become of a link needs to look at these few moves, and
`Leads` says of each operation that it is made of them. Those that are `Runs` leave every peer its
link besides.
-/

namespace ShardMesh.Bridge

variable {C P : Type} {b b' b'' : Bridge C P}

/-! ## Moves -/

/-- The dials that were begun, by link and generation. -/
def dials (b : Bridge C P) : List (Nat × Nat) := b.lines.map fun w => (w.link, w.generation)

/-- What a link asks for when it is told something. -/
def asks (b : Bridge C P) (link : Nat) (input : LinkInput P) : List (Nat × LinkEffect P) :=
  match b.links[link]? with
  | none => []
  | some (_, l) => (l.step b.now b.settings.reconnectDelay input).2.map fun e => (link, e)

/-- Something goes on that is none of the links' business. -/
structure Around (b b' : Bridge C P) : Prop where
  links : b'.links = b.links
  linked : b'.linked = b.linked
  peers : b'.peers = b.peers
  dials : b'.dials = b.dials

/-- What may become of a bridge, and what its links ask for on the way. -/
inductive Proceeds (b : Bridge C P) : List (Nat × LinkEffect P) → Bridge C P → Prop where
  | start : Proceeds b [] b
  /-- A link is told something. -/
  | tell {asked : List (Nat × LinkEffect P)} {b' : Bridge C P} (h : Proceeds b asked b')
      (link : Nat) (input : LinkInput P) :
      Proceeds b (asked ++ b'.asks link input) (b'.feed link input)
  | around {asked : List (Nat × LinkEffect P)} {b' b'' : Bridge C P} (h : Proceeds b asked b')
      (haround : b'.Around b'') : Proceeds b asked b''
  /-- A peer without a link gets a new one. -/
  | begin {asked : List (Nat × LinkEffect P)} {b' : Bridge C P} (h : Proceeds b asked b')
      (peer : String) (hfree : b'.linked.get? peer = none) (muted : Bool) :
      Proceeds b asked { b' with
        links := b'.links ++ [(peer, { muted })]
        linked := b'.linked.set peer b'.links.length }
  /-- Peers lose their links. -/
  | giveUp {asked : List (Nat × LinkEffect P)} {b' : Bridge C P} (h : Proceeds b asked b')
      (linked : Dict String Nat)
      (hless : ∀ peer link, linked.get? peer = some link → b'.linked.get? peer = some link) :
      Proceeds b asked { b' with linked }

/-- An operation that is made of moves. -/
def Leads (b b' : Bridge C P) : Prop := ∃ asked, Proceeds b asked b'

/-- An operation that is made of moves and leaves every peer its link. -/
structure Runs (b b' : Bridge C P) : Prop where
  leads : b.Leads b'
  linked : b'.linked = b.linked

theorem Proceeds.trans {asked asked' : List (Nat × LinkEffect P)} (h : Proceeds b asked b')
    (h' : Proceeds b' asked' b'') : Proceeds b (asked ++ asked') b'' := by
  induction h' with
  | start =>
    rw [List.append_nil]
    exact h
  | tell _ link input ih =>
    rw [← List.append_assoc]
    exact ih.tell link input
  | around _ haround ih => exact ih.around haround
  | begin _ peer hfree muted ih => exact ih.begin peer hfree muted
  | giveUp _ linked hless ih => exact ih.giveUp linked hless

theorem Leads.refl (b : Bridge C P) : b.Leads b := ⟨[], .start⟩

theorem Leads.trans (h : b.Leads b') (h' : b'.Leads b'') : b.Leads b'' := by
  obtain ⟨asked, h⟩ := h
  obtain ⟨asked', h'⟩ := h'
  exact ⟨asked ++ asked', h.trans h'⟩

theorem Runs.refl (b : Bridge C P) : b.Runs b := ⟨.refl b, rfl⟩

theorem Runs.trans (h : b.Runs b') (h' : b'.Runs b'') : b.Runs b'' :=
  ⟨h.leads.trans h'.leads, h'.linked.trans h.linked⟩

theorem Around.runs (h : b.Around b') : b.Runs b' := ⟨⟨[], Proceeds.start.around h⟩, h.linked⟩

theorem Runs.foldl {α : Type} (f : Bridge C P → α → Bridge C P)
    (hf : ∀ (b : Bridge C P) a, b.Runs (f b a)) (as : List α) (b : Bridge C P) :
    b.Runs (as.foldl f b) := by
  induction as generalizing b with
  | nil => exact .refl b
  | cons a rest ih => exact (hf b a).trans (ih (f b a))

/-! ## Around the links -/

theorem Around.refl (b : Bridge C P) : b.Around b := ⟨rfl, rfl, rfl, rfl⟩

theorem Around.trans (h : b.Around b') (h' : b'.Around b'') : b.Around b'' :=
  ⟨h'.links.trans h.links, h'.linked.trans h.linked, h'.peers.trans h.peers,
    h'.dials.trans h.dials⟩

theorem around_withLine {α : Type} (b : Bridge C P) (place : Nat)
    (f : Line C P → α × Line C P) : b.Around (b.withLine place f).2 := by
  unfold withLine
  cases hline : b.lines[place]? with
  | none => exact .refl b
  | some w =>
    refine ⟨rfl, rfl, rfl, ?_⟩
    obtain ⟨hplace, rfl⟩ := List.getElem?_eq_some_iff.mp hline
    show (b.lines.set place _).map _ = b.lines.map _
    rw [List.map_set]
    exact (List.getElem_map (fun w : LinkLine C P => (w.link, w.generation)) ▸
      List.set_getElem_self (by rwa [List.length_map]))

theorem around_mapLine (b : Bridge C P) (place : Nat) (f : Line C P → Line C P) :
    b.Around (b.mapLine place f) := b.around_withLine place _

theorem around_keepLatestPeer (b : Bridge C P) (place : Nat) :
    b.Around (b.keepLatestPeer place) := by
  refine ⟨rfl, rfl, rfl, ?_⟩
  have hlines : b.dials = (b.lines.zipIdx.map Prod.fst).map fun w => (w.link, w.generation) :=
    congrArg (List.map _) (List.zipIdx_map_fst 0 b.lines).symm
  rw [hlines, List.map_map]
  show (b.lines.zipIdx.map _).map _ = _
  rw [List.map_map]
  refine List.map_congr_left fun w _ => ?_
  dsimp only [Function.comp]
  split <;> rfl

/-! ## Links are told something -/

/-- Of all that a link asks for, only dials make a difference to what the links are made of. -/
theorem apply_frame (b : Bridge C P) (link : Nat) (peer : String) (effect : LinkEffect P) :
    (b.apply link peer effect).links = b.links ∧ (b.apply link peer effect).linked = b.linked ∧
      (b.apply link peer effect).peers = b.peers ∧
      ((b.apply link peer effect).dials = b.dials ∨ ∃ generation, effect = .dial generation ∧
        (b.apply link peer effect).dials = b.dials ++ [(link, generation)]) := by
  cases effect with
  | dial generation =>
    rw [apply]
    cases b.peers.get? peer with
    | none => exact ⟨rfl, rfl, rfl, .inl rfl⟩
    | some config => exact ⟨rfl, rfl, rfl, .inr ⟨generation, rfl, List.map_append⟩⟩
  | discard => exact ⟨rfl, rfl, rfl, .inl rfl⟩
  | close generation =>
    rw [apply]
    cases b.lineOf? link generation with
    | none => exact ⟨rfl, rfl, rfl, .inl rfl⟩
    | some place =>
      have haround := b.around_mapLine place (·.close b.now b.settings.closeTimeout)
      exact ⟨haround.links, haround.linked, haround.peers, .inl haround.dials⟩
  | countConnect => exact ⟨rfl, rfl, rfl, .inl rfl⟩
  | countRetry => exact ⟨rfl, rfl, rfl, .inl rfl⟩
  | notify notice => exact ⟨rfl, rfl, rfl, .inl rfl⟩

/-- What a link asks for touches no link, and dials for itself only. -/
theorem applyAll_frame (link : Nat) (peer : String) (effects : List (LinkEffect P))
    (b : Bridge C P) :
    let after := effects.foldl (fun b e => b.apply link peer e) b
    after.links = b.links ∧ after.linked = b.linked ∧ after.peers = b.peers ∧
      ∀ other, (other = link → ∀ generation, .dial generation ∉ effects) →
        after.dials.filter (·.1 = other) = b.dials.filter (·.1 = other) := by
  induction effects generalizing b with
  | nil => exact ⟨rfl, rfl, rfl, fun _ _ => rfl⟩
  | cons effect rest ih =>
    obtain ⟨hlinks, hlinked, hpeers, hdials⟩ := b.apply_frame link peer effect
    obtain ⟨ihlinks, ihlinked, ihpeers, ihdials⟩ := ih (b.apply link peer effect)
    refine ⟨ihlinks.trans hlinks, ihlinked.trans hlinked, ihpeers.trans hpeers,
      fun other hother => ?_⟩
    refine (ihdials other fun heq generation hmem =>
      hother heq generation (List.mem_cons_of_mem _ hmem)).trans ?_
    rcases hdials with hdials | ⟨generation, heffect, hdials⟩
    · rw [hdials]
    · have hne : link ≠ other := fun heq =>
        hother heq.symm generation (heffect ▸ List.mem_cons_self)
      rw [hdials, List.filter_append, List.filter_cons_of_neg (by simpa using hne)]
      exact List.append_nil _

/-- A link that is told something takes a step, and nothing else changes about the links. -/
theorem feed_frame {link : Nat} {peer : String} {l : Link} (h : b.links[link]? = some (peer, l))
    (input : LinkInput P) :
    let step := l.step b.now b.settings.reconnectDelay input
    (b.feed link input).links = b.links.set link (peer, step.1) ∧
      (b.feed link input).linked = b.linked ∧ (b.feed link input).peers = b.peers ∧
      ∀ other, (other = link → ∀ generation, .dial generation ∉ step.2) →
        (b.feed link input).dials.filter (·.1 = other) = b.dials.filter (·.1 = other) := by
  intro step
  have hfeed : b.feed link input = step.2.foldl (fun b e => b.apply link peer e)
      { b with links := b.links.set link (peer, step.1) } := by
    unfold feed
    rw [h]
  rw [hfeed]
  exact applyAll_frame link peer step.2 _

theorem feed_of_none {link : Nat} (h : b.links[link]? = none) (input : LinkInput P) :
    b.feed link input = b := by
  unfold feed
  rw [h]

theorem runs_feed (b : Bridge C P) (link : Nat) (input : LinkInput P) :
    b.Runs (b.feed link input) := by
  refine ⟨⟨_, Proceeds.start.tell link input⟩, ?_⟩
  cases hlink : b.links[link]? with
  | none => rw [feed_of_none hlink]
  | some entry =>
    obtain ⟨-, hlinked, -, -⟩ := feed_frame hlink input
    exact hlinked

theorem runs_addObserver (observer : Observer P) (h : b.addObserver observer = .ok b') :
    b.Runs b' := by
  unfold addObserver at h
  split at h
  · cases h
  · cases h
    exact Around.runs ⟨rfl, rfl, rfl, rfl⟩

theorem runs_removeObserver (b : Bridge C P) (name : String) :
    b.Runs (b.removeObserver name).2 := Around.runs ⟨rfl, rfl, rfl, rfl⟩

theorem runs_report (b : Bridge C P) : b.Runs b.report.2 := Around.runs ⟨rfl, rfl, rfl, rfl⟩

/-! ## Connecting -/

theorem runs_connectLink (b : Bridge C P) (link : Nat) : b.Runs (b.connectLink link).2 := by
  unfold connectLink
  split
  · exact .refl b
  · exact b.runs_feed link .connect

theorem leads_connect (b : Bridge C P) (peer : String) : b.Leads (b.connect peer).2 := by
  unfold connect
  split
  · exact .refl b
  · exact .refl b
  · rename_i hfree
    exact Leads.trans ⟨[], Proceeds.start.begin peer hfree _⟩ (runs_connectLink _ _).leads

theorem leads_connectEach (b : Bridge C P) (peers : List String) :
    b.Leads (b.connectEach peers).2 := by
  induction peers generalizing b with
  | nil => exact .refl b
  | cons peer rest ih =>
    have hconnect := b.leads_connect peer
    rw [connectEach]
    split <;> rename_i heq <;> rw [heq] at hconnect
    · exact hconnect.trans (ih _)
    · exact hconnect

theorem leads_connectAll (b : Bridge C P) : b.Leads b.connectAll.2 := b.leads_connectEach _

/-! ## The far end -/

theorem runs_withPeer {α : Type} (b : Bridge C P) (peer : String)
    (f : Client C P → Exchange → α × Exchange × Client C P) : b.Runs (b.withPeer peer f).2 := by
  unfold withPeer
  split
  · exact (b.around_withLine _ _).runs
  · exact .refl b

theorem runs_dialed (b : Bridge C P) : b.Runs b.dialed.2 := Around.runs ⟨rfl, rfl, rfl, rfl⟩

/-! ## Time passes -/

section Operations

variable [Packet P]

theorem listenTo_dials (now : Nat) (lines : List (LinkLine C P)) (hub : Hub P) :
    (listenTo now lines hub).2.1.map (fun w => (w.link, w.generation)) =
      lines.map fun w => (w.link, w.generation) := by
  induction lines generalizing hub with
  | nil => rfl
  | cons w rest ih =>
    rw [listenTo, List.map_cons, List.map_cons, ih]

theorem around_listenAll (b : Bridge C P) : b.Around b.listenAll.2 :=
  ⟨rfl, rfl, rfl, listenTo_dials b.now b.lines b.hub⟩

theorem runs_settleFor (fuel : Nat) (b : Bridge C P) : b.Runs (settleFor fuel b) := by
  induction fuel generalizing b with
  | zero => exact .refl b
  | succ fuel ih =>
    have haround := b.around_listenAll.runs
    rw [settleFor]
    split
    · rename_i heq
      rwa [heq] at haround
    · rename_i inputs after hnone heq
      rw [heq] at haround
      have htold := Runs.foldl (fun b (told : Nat × LinkInput P) => b.feed told.1 told.2)
        (fun b told => b.runs_feed told.1 told.2) inputs after
      exact (haround.trans htold).trans (ih _)

theorem runs_settle (b : Bridge C P) : b.Runs b.settle := b.runs_settleFor _

theorem runs_ring (b : Bridge C P) (what : BridgeAlarm) : b.Runs (b.ring what) := by
  cases what with
  | retry link => exact b.runs_feed link .retryDue
  | line place what =>
    have hmap := b.around_mapLine place (·.ring b.now what)
    show b.Runs (if _ then _ else _)
    split
    · exact (hmap.trans (around_keepLatestPeer _ place)).runs
    · exact hmap.runs

theorem runs_runFor (fuel : Nat) (enough : Bridge C P → Bool) (b : Bridge C P) (target : Nat) :
    b.Runs (runFor fuel enough b target) := by
  have hwait (b : Bridge C P) (now : Nat) : b.Runs { b with now } :=
    Around.runs ⟨rfl, rfl, rfl, rfl⟩
  induction fuel generalizing b with
  | zero => exact hwait b target
  | succ fuel ih =>
    have hsettle := b.runs_settle
    rw [runFor]
    split
    · exact hsettle
    · split
      · rename_i alarm what heq
        split
        · exact hsettle.trans (((hwait _ _).trans (runs_ring _ what)).trans (ih _))
        · exact hsettle.trans (hwait _ _)
      · exact hsettle.trans (hwait _ _)

theorem runs_advance (b : Bridge C P) (millis : Nat) : b.Runs (b.advance millis) :=
  runs_runFor _ _ b _

theorem runs_awaitCloses (b : Bridge C P) (lines : List Nat) : b.Runs (b.awaitCloses lines) :=
  (runs_runFor _ _ b _).trans (runs_advance _ 0)

/-! ## Shutting down -/

theorem runs_shutDown (b : Bridge C P) (links : List Nat) : b.Runs (b.shutDown links) := by
  have hfeed (input : LinkInput P) (b : Bridge C P) : b.Runs (links.foldl (·.feed · input) b) :=
    Runs.foldl _ (fun b link => b.runs_feed link input) links b
  exact ((hfeed .shutDown b).trans (runs_awaitCloses _ _)).trans (hfeed .closed _)

theorem disconnect_of_linked {peer : String} {link : Nat} (h : b.linked.get? peer = some link) :
    (b.disconnect peer).2 = { b with linked := b.linked.erase peer }.shutDown [link] := by
  unfold disconnect
  rw [h]

theorem leads_disconnect (b : Bridge C P) (peer : String) : b.Leads (b.disconnect peer).2 := by
  cases hlinked : b.linked.get? peer with
  | none =>
    unfold disconnect
    rw [hlinked]
    exact .refl b
  | some link =>
    rw [disconnect_of_linked hlinked]
    have hless : ∀ other link, (b.linked.erase peer).get? other = some link →
        b.linked.get? other = some link := by
      intro other link h
      rw [Dict.get?_erase] at h
      split at h
      · cases h
      · exact h
    have hgiveUp : b.Leads { b with linked := b.linked.erase peer } :=
      ⟨[], Proceeds.start.giveUp _ hless⟩
    exact hgiveUp.trans (runs_shutDown _ [link]).leads

theorem leads_disconnectAll (b : Bridge C P) : b.Leads b.disconnectAll :=
  Leads.trans ⟨[], Proceeds.start.giveUp Dict.empty nofun⟩ (runs_shutDown _ _).leads

/-! ## Sending -/

theorem around_sendOver (b : Bridge C P) (link : Nat) (packet : P) :
    b.Around (b.sendOver link packet).2 := by
  unfold sendOver
  dsimp only
  split <;> rename_i heq
  · obtain ⟨place, -, hsent⟩ := Option.map_eq_some_iff.mp heq
    exact congrArg Prod.snd hsent ▸ b.around_withLine place _
  · obtain ⟨place, -, hsent⟩ := Option.map_eq_some_iff.mp heq
    have haround := b.around_withLine place fun l : Line C P =>
      ((l.client.send packet).1, { l with client := (l.client.send packet).2 })
    rw [show (b.withLine place _).2 = _ from congrArg Prod.snd hsent] at haround
    exact haround.trans ⟨rfl, rfl, rfl, rfl⟩
  · exact ⟨rfl, rfl, rfl, rfl⟩

theorem runs_send (b : Bridge C P) (peer : String) (packet : P) :
    b.Runs (b.send peer packet).2 := by
  unfold send
  split
  · exact (b.around_sendOver _ packet).runs
  · exact .refl b

theorem runs_broadcast (b : Bridge C P) (packet : P) : b.Runs (b.broadcast packet).2 := by
  unfold broadcast
  exact List.foldlRecOn (motive := fun sent : Nat × Bridge C P => b.Runs sent.2) _ _ (.refl b)
    fun sent h link _ => h.trans (sent.2.around_sendOver link packet).runs

/-- What a node and the far ends can do with a bridge. -/
inductive Operates (b : Bridge C P) : Bridge C P → Prop where
  | addObserver (observer : Observer P) {b' : Bridge C P} (h : b.addObserver observer = .ok b') :
      Operates b b'
  | removeObserver (name : String) : Operates b (b.removeObserver name).2
  | report : Operates b b.report.2
  | connect (peer : String) : Operates b (b.connect peer).2
  | connectAll : Operates b b.connectAll.2
  | disconnect (peer : String) : Operates b (b.disconnect peer).2
  | disconnectAll : Operates b b.disconnectAll
  | send (peer : String) (packet : P) : Operates b (b.send peer packet).2
  | broadcast (packet : P) : Operates b (b.broadcast packet).2
  | dialed : Operates b b.dialed.2
  | withPeer {α : Type} (peer : String) (f : Client C P → Exchange → α × Exchange × Client C P) :
      Operates b (b.withPeer peer f).2
  | advance (millis : Nat) : Operates b (b.advance millis)

/-- All operations are made of the moves. -/
theorem Operates.leads (h : b.Operates b') : b.Leads b' := by
  cases h with
  | addObserver observer h => exact (runs_addObserver observer h).leads
  | removeObserver name => exact (b.runs_removeObserver name).leads
  | report => exact b.runs_report.leads
  | connect peer => exact b.leads_connect peer
  | connectAll => exact b.leads_connectAll
  | disconnect peer => exact b.leads_disconnect peer
  | disconnectAll => exact b.leads_disconnectAll
  | send peer packet => exact (b.runs_send peer packet).leads
  | broadcast packet => exact (b.runs_broadcast packet).leads
  | dialed => exact b.runs_dialed.leads
  | withPeer peer f => exact (b.runs_withPeer peer f).leads
  | advance millis => exact (b.runs_advance millis).leads

end Operations

end ShardMesh.Bridge
