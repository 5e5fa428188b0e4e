import ShardMesh.Compression.Standard
import ShardMesh.Proofs.Bridge.Moves
import ShardMesh.Proofs.Dict

/-!
# A link that is shut down

A link may be shut down at any time: while it dials, while its alarm is set, and while its clients
still have something to report. From then on it holds no client and waits for no alarm, and whatever
it is told it stays so; of all that it could ask for there is left that a packet is passed on. Its
peer gets a new link when it is connected to again, and what the old one is told does not reach that.
-/

namespace ShardMesh

variable {C P : Type}

/-! ## Links -/

namespace Link

/-- The link is shut down: it holds no client and waits for no alarm. -/
structure Over (l : Link) : Prop where
  shutDown : l.shutDown = true
  held : l.held = none
  retry : l.retry = none

theorem over_of_shutDown (l : Link) (now delay : Nat) :
    (l.step now delay (.shutDown : LinkInput P)).1.Over := ⟨rfl, rfl, rfl⟩

/-- Every entry asks first whether the link is shut down, except that of packets. -/
theorem Over.step {l : Link} (h : l.Over) (now delay : Nat) (input : LinkInput P) :
    ((l.step now delay input).1 = l ∨
      (l.step now delay input).1 = { l with state := .disconnected }) ∧
    ((∀ packet, input ≠ .packet l.generation packet) ∧ (l.step now delay input).2 = [] ∨
      ∃ packet, input = .packet l.generation packet ∧
        (l.step now delay input).2 = [.notify (.packet packet)]) := by
  obtain ⟨muted, state, held, retry, shutDown, generation, attempts⟩ := l
  obtain ⟨rfl, rfl, rfl⟩ : shutDown = true ∧ held = none ∧ retry = none :=
    ⟨h.shutDown, h.held, h.retry⟩
  have hignores (g : Nat) :
      (⟨muted, state, none, none, true, generation, attempts⟩ : Link).ignores g = true := by
    simp [ignores]
  cases input with
  | connect => exact ⟨.inl rfl, .inl ⟨nofun, rfl⟩⟩
  | schedule => exact ⟨.inl rfl, .inl ⟨nofun, rfl⟩⟩
  | retryDue => exact ⟨.inl rfl, .inl ⟨nofun, rfl⟩⟩
  | failed g =>
    rw [Link.step, if_pos (hignores g)]
    exact ⟨.inl rfl, .inl ⟨nofun, rfl⟩⟩
  | active g =>
    rw [Link.step, if_pos (hignores g)]
    exact ⟨.inl rfl, .inl ⟨nofun, rfl⟩⟩
  | lost g =>
    rw [Link.step, if_pos (hignores g)]
    exact ⟨.inl rfl, .inl ⟨nofun, rfl⟩⟩
  | packet g packet =>
    by_cases hlatest : generation = g
    · subst hlatest
      rw [Link.step, if_neg (not_not_intro rfl)]
      exact ⟨.inl rfl, .inr ⟨packet, rfl, rfl⟩⟩
    · rw [Link.step, if_pos hlatest]
      exact ⟨.inl rfl, .inl ⟨fun other heq => hlatest (LinkInput.packet.inj heq).1.symm, rfl⟩⟩
  | shutDown => exact ⟨.inl rfl, .inl ⟨nofun, rfl⟩⟩
  | closed => exact ⟨.inr rfl, .inl ⟨nofun, rfl⟩⟩

theorem Over.disconnected {l : Link} (h : l.Over) : Over { l with state := .disconnected } :=
  ⟨h.shutDown, h.held, h.retry⟩

theorem Over.sender? {l : Link} (h : l.Over) : l.sender? = none := by
  unfold Link.sender?
  rw [h.held]
  exact ite_self none

end Link

namespace Bridge

variable {b b' : Bridge C P} {link : Nat} {peer : String} {l : Link}

/-! ## A link that is over, among others -/

/-- A link that is over is told something: it may become disconnected, and observers may be told of a
    packet. Nothing else of the bridge changes. -/
theorem feed_of_over (h : b.links[link]? = some (peer, l)) (hover : l.Over)
    (input : LinkInput P) : ∃ l' observers metrics, (l' = l ∨ l' = { l with state := .disconnected }) ∧
      b.feed link input = { b with
        links := b.links.set link (peer, l')
        observers
        hub := { b.hub with metrics } } := by
  obtain ⟨hnext, hasked⟩ := hover.step b.now b.settings.reconnectDelay input
  refine ⟨(l.step b.now b.settings.reconnectDelay input).1, ?_⟩
  unfold feed
  rw [h]
  dsimp only
  rcases hasked with ⟨-, hnothing⟩ | ⟨packet, -, hpacket⟩
  · rw [hnothing]
    exact ⟨b.observers, b.hub.metrics, hnext, rfl⟩
  · rw [hpacket]
    exact ⟨_, _, hnext, rfl⟩

/-- A link of which something is true that does not depend on its state. -/
def Has (b : Bridge C P) (link : Nat) (peer : String) (p : Link → Prop) : Prop :=
  ∃ l, b.links[link]? = some (peer, l) ∧ p l

/-- The link is over for good. -/
structure Final (p : Link → Prop) : Prop where
  isOver : ∀ l, p l → l.Over
  disconnected : ∀ l, p l → p { l with state := .disconnected }

theorem Has.lt {p : Link → Prop} (h : b.Has link peer p) : link < b.links.length := by
  obtain ⟨l, hl, -⟩ := h
  obtain ⟨hlt, -⟩ := List.getElem?_eq_some_iff.mp hl
  exact hlt

/-- What another link is told does not concern a link. -/
theorem getElem?_feed_of_ne {other : Nat} (hne : other ≠ link) (input : LinkInput P) :
    (b.feed other input).links[link]? = b.links[link]? := by
  cases hother : b.links[other]? with
  | none => rw [feed_of_none hother]
  | some entry =>
    obtain ⟨hlinks, -⟩ := feed_frame hother input
    rw [hlinks, List.getElem?_set_ne hne]

theorem Has.feed {p : Link → Prop} (h : b.Has link peer p) (hp : Final p) (other : Nat)
    (input : LinkInput P) : (b.feed other input).Has link peer p := by
  obtain ⟨l, hl, hpl⟩ := h
  by_cases heq : other = link
  · subst heq
    obtain ⟨l', observers, metrics, hnext, hfeed⟩ := feed_of_over hl (hp.isOver l hpl) input
    obtain ⟨hlt, -⟩ := List.getElem?_eq_some_iff.mp hl
    refine ⟨l', ?_, ?_⟩
    · rw [hfeed]
      exact List.getElem?_set_self hlt
    · rcases hnext with rfl | rfl
      · exact hpl
      · exact hp.disconnected l hpl
  · exact ⟨l, (getElem?_feed_of_ne heq input).trans hl, hpl⟩

/-- Once a link is over it stays so, whatever becomes of the bridge. -/
theorem Has.proceeds {p : Link → Prop} (h : b.Has link peer p) (hp : Final p)
    {asked : List (Nat × LinkEffect P)} (hb : Proceeds b asked b') : b'.Has link peer p := by
  induction hb with
  | start => exact h
  | tell _ other input ih => exact ih.feed hp other input
  | around _ haround ih =>
    obtain ⟨l, hl, hpl⟩ := ih
    exact ⟨l, haround.links ▸ hl, hpl⟩
  | begin _ other hfree muted ih =>
    obtain ⟨l, hl, hpl⟩ := ih
    exact ⟨l, (List.getElem?_append_left (Has.lt ⟨l, hl, hpl⟩)).trans hl, hpl⟩
  | giveUp _ linked hless ih => exact ih

/-- A link that is over dials no more and reports no session. -/
theorem Has.quiet {p : Link → Prop} (h : b.Has link peer p) (hp : Final p)
    {asked : List (Nat × LinkEffect P)} (hb : Proceeds b asked b') :
    (∀ effect, (link, effect) ∈ asked → ∃ packet, effect = .notify (.packet packet)) ∧
      b'.dials.filter (·.1 = link) = b.dials.filter (·.1 = link) := by
  induction hb with
  | start => exact ⟨nofun, rfl⟩
  | @tell asked b' hb other input ih =>
    obtain ⟨ihasked, ihdials⟩ := ih
    obtain ⟨l, hl, hpl⟩ := h.proceeds hp hb
    obtain ⟨-, hpackets⟩ := (hp.isOver l hpl).step b'.now b'.settings.reconnectDelay input
    have hstep : ∀ effect ∈ (l.step b'.now b'.settings.reconnectDelay input).2,
        ∃ packet, effect = .notify (.packet packet) := by
      intro effect hmem
      rcases hpackets with ⟨-, hnothing⟩ | ⟨packet, -, hpacket⟩
      · rw [hnothing] at hmem
        cases hmem
      · rw [hpacket] at hmem
        exact ⟨packet, List.mem_singleton.mp hmem⟩
    cases hother : b'.links[other]? with
    | none =>
      have hasks : b'.asks other input = [] := by rw [asks, hother]
      rw [feed_of_none hother, hasks, List.append_nil]
      exact ⟨ihasked, ihdials⟩
    | some entry =>
      have hasks : b'.asks other input = (entry.2.step b'.now b'.settings.reconnectDelay
          input).2.map fun e => (other, e) := by rw [asks, hother]
      have hentry : other = link → entry = (peer, l) := by
        rintro rfl
        exact Option.some.inj (hother.symm.trans hl)
      obtain ⟨-, -, -, hdials⟩ := feed_frame hother input
      refine ⟨fun effect hmem => ?_, (hdials link fun heq generation hmem => ?_).trans ihdials⟩
      · rcases List.mem_append.mp hmem with hmem | hmem
        · exact ihasked effect hmem
        · rw [hasks] at hmem
          obtain ⟨e, he, heq⟩ := List.mem_map.mp hmem
          obtain ⟨rfl, rfl⟩ := Prod.mk.inj heq
          rw [hentry rfl] at he
          exact hstep e he
      · rw [hentry heq.symm] at hmem
        obtain ⟨packet, hpacket⟩ := hstep _ hmem
        cases hpacket
  | around _ haround ih => exact ⟨ih.1, haround.dials ▸ ih.2⟩
  | begin _ other hfree muted ih => exact ih
  | giveUp _ linked hless ih => exact ih

theorem Proceeds.peers {asked : List (Nat × LinkEffect P)} (h : Proceeds b asked b') :
    b'.peers = b.peers := by
  induction h with
  | start => rfl
  | @tell _ b' _ other input ih =>
    cases hother : b'.links[other]? with
    | none => rw [feed_of_none hother, ih]
    | some entry =>
      obtain ⟨-, -, hpeers, -⟩ := feed_frame hother input
      exact hpeers.trans ih
  | around _ haround ih => exact haround.peers.trans ih
  | begin _ _ _ _ ih => exact ih
  | giveUp _ _ _ ih => exact ih

/-- A link that a peer has lost never becomes its link again. -/
theorem Has.unlinked {p : Link → Prop} (h : b.Has link peer p) (hp : Final p)
    {asked : List (Nat × LinkEffect P)} (hb : Proceeds b asked b') {other : String}
    (hlost : b.linked.get? other ≠ some link) : b'.linked.get? other ≠ some link := by
  induction hb with
  | start => exact hlost
  | @tell _ b' _ told input ih =>
    cases htold : b'.links[told]? with
    | none =>
      rw [feed_of_none htold]
      exact ih
    | some entry =>
      obtain ⟨-, hlinked, -, -⟩ := feed_frame htold input
      rw [hlinked]
      exact ih
  | around _ haround ih =>
    rw [haround.linked]
    exact ih
  | begin hb new hfree muted ih =>
    have hlt := (h.proceeds hp hb).lt
    show (Dict.set _ _ _).get? other ≠ some link
    rw [Dict.get?_set]
    split
    · intro heq
      exact Nat.ne_of_gt hlt (Option.some.inj heq)
    · exact ih
  | giveUp _ linked hless ih => exact fun heq => ih (hless other link heq)

/-! ## Shutting down -/

/-- That a link is over, and how often it has dialed. -/
theorem final_attempts (attempts : Nat) : Final fun l => l.Over ∧ l.attempts = attempts :=
  ⟨fun _ h => h.1, fun _ h => ⟨h.1.disconnected, h.2⟩⟩

theorem final_disconnected : Final fun l => l.Over ∧ l.state = .disconnected :=
  ⟨fun _ h => h.1, fun _ h => ⟨h.1.disconnected, rfl⟩⟩

/-- A link that is shut down has dialed as often as before. -/
theorem has_feed_shutDown (h : b.links[link]? = some (peer, l)) :
    (b.feed link .shutDown).Has link peer (fun l' => l'.Over ∧ l'.attempts = l.attempts) ∧
      (b.feed link .shutDown).dials.filter (·.1 = link) = b.dials.filter (·.1 = link) := by
  obtain ⟨hlinks, -, -, hdials⟩ := feed_frame h (.shutDown : LinkInput P)
  obtain ⟨hlt, -⟩ := List.getElem?_eq_some_iff.mp h
  have hrelease : ∀ generation, .dial generation ∉ (l.release : List (LinkEffect P)) := by
    intro generation hmem
    unfold Link.release at hmem
    cases hheld : l.held <;> rw [hheld] at hmem
    · cases hmem
    · cases List.mem_singleton.mp hmem
  refine ⟨⟨(l.step b.now b.settings.reconnectDelay (.shutDown : LinkInput P)).1, ?_,
    Link.over_of_shutDown l _ _, rfl⟩, hdials link fun _ => hrelease⟩
  rw [hlinks]
  exact List.getElem?_set_self hlt

theorem Has.feed_closed (h : b.Has link peer Link.Over) :
    (b.feed link .closed).Has link peer fun l => l.Over ∧ l.state = .disconnected := by
  obtain ⟨l, hl, hover⟩ := h
  obtain ⟨hlinks, -⟩ := feed_frame hl (.closed : LinkInput P)
  obtain ⟨hlt, -⟩ := List.getElem?_eq_some_iff.mp hl
  refine ⟨{ l with state := .disconnected }, ?_, hover.disconnected, rfl⟩
  rw [hlinks]
  exact List.getElem?_set_self hlt

/-- What other links are told does not concern a link. -/
theorem feedAll_of_not_mem {links : List Nat} (hmem : link ∉ links) (input : LinkInput P)
    (b : Bridge C P) :
    (links.foldl (·.feed · input) b).links[link]? = b.links[link]? ∧
      (links.foldl (·.feed · input) b).dials.filter (·.1 = link) =
        b.dials.filter (·.1 = link) := by
  induction links generalizing b with
  | nil => exact ⟨rfl, rfl⟩
  | cons other rest ih =>
    rw [List.mem_cons, not_or] at hmem
    obtain ⟨hne, hmem⟩ := hmem
    obtain ⟨ihlinks, ihdials⟩ := ih hmem (b.feed other input)
    refine ⟨ihlinks.trans (getElem?_feed_of_ne (Ne.symm hne) input), ihdials.trans ?_⟩
    cases hother : b.links[other]? with
    | none => rw [feed_of_none hother]
    | some entry =>
      obtain ⟨-, -, -, hdials⟩ := feed_frame hother input
      exact hdials link fun heq => absurd heq hne

/-- The link that a peer without one gets: it was told to connect, and nothing before. -/
def firstLink (peer : String) : Link :=
  (({ muted := !isThreadName (listenerName peer) } : Link).connect : Link × List (LinkEffect P)).1

theorem connect_of_unlinked (hpeer : (b.peers.get? peer).isSome)
    (hfree : b.linked.get? peer = none) :
    (b.connect peer).2.linked.get? peer = some b.links.length ∧
      (b.connect peer).2.links[b.links.length]? = some (peer, firstLink (P := P) peer) := by
  obtain ⟨config, hconfig⟩ := Option.isSome_iff_exists.mp hpeer
  generalize hbegun : { b with
    links := b.links ++ [(peer, ({ muted := !isThreadName (listenerName peer) } : Link))]
    linked := b.linked.set peer b.links.length } = begun
  have hnew : begun.links[b.links.length]? =
      some (peer, { muted := !isThreadName (listenerName peer) }) := by
    rw [← hbegun]
    exact List.getElem?_concat_length
  have hconnect : (b.connect peer).2 = begun.feed b.links.length .connect := by
    unfold connect
    rw [hconfig, hfree]
    show (connectLink { b with links := _, linked := _ } b.links.length).2 = _
    rw [hbegun]
    unfold connectLink
    rw [hnew]
  obtain ⟨hlinks, hlinked, -, -⟩ := feed_frame hnew (.connect : LinkInput P)
  obtain ⟨hlt, -⟩ := List.getElem?_eq_some_iff.mp hnew
  rw [hconnect, hlinked, hlinks]
  refine ⟨?_, List.getElem?_set_self hlt⟩
  rw [← hbegun]
  show (b.linked.set peer b.links.length).get? peer = _
  rw [Dict.get?_set, if_pos rfl]

section Operations

variable [Packet P]

/-- From here on a link does nothing any more, whatever becomes of its bridge: it has dialed as often
    as it has, waits for no alarm, holds no client, sends nothing and reports no session. -/
def Silent (b : Bridge C P) (link : Nat) (peer : String) (attempts : Nat)
    (dials : List (Nat × Nat)) : Prop :=
  ∀ asked after, Proceeds b asked after →
    (∃ l, after.links[link]? = some (peer, l) ∧
      l.attempts = attempts ∧ l.retry = none ∧ l.held = none) ∧
    after.isLinkConnected link = false ∧
    (∀ packet, (after.sendOver link packet).1 = false) ∧
    after.dials.filter (·.1 = link) = dials ∧
    ∀ effect, (link, effect) ∈ asked → ∃ packet, effect = .notify (.packet packet)

theorem Has.silent {attempts : Nat}
    (h : b.Has link peer fun l => l.Over ∧ l.attempts = attempts) :
    b.Silent link peer attempts (b.dials.filter (·.1 = link)) := by
  intro asked after hafter
  obtain ⟨l, hl, hover, hattempts⟩ := h.proceeds (final_attempts attempts) hafter
  obtain ⟨hasked, hdials⟩ := h.quiet (final_attempts attempts) hafter
  have hsender : (do after.lineOf? link (← (← after.links[link]?).2.sender?)) = none := by
    rw [hl]
    show (l.sender?.bind fun generation => after.lineOf? link generation) = none
    rw [hover.sender?]
    rfl
  refine ⟨⟨l, hl, hattempts, hover.retry, hover.held⟩, ?_, fun packet => ?_, hdials, hasked⟩
  · unfold isLinkConnected
    rw [hl]
    show Option.any _ (l.sender?.bind _) = false
    rw [hover.sender?]
    rfl
  · unfold sendOver
    rw [hsender]
    rfl

/-- Of the links that are shut down together, each one is told so once it is its turn, and is
    disconnected in the end. -/
theorem shutDown_of_mem {links : List Nat} (hmem : link ∈ links)
    (h : b.links[link]? = some (peer, l)) :
    (∃ (begun : Bridge C P) (asked : _), begun.links[link]? = some (peer, l) ∧
      begun.dials.filter (·.1 = link) = b.dials.filter (·.1 = link) ∧
      Proceeds (begun.feed link .shutDown) asked (b.shutDown links)) ∧
    (b.shutDown links).Has link peer fun l => l.Over ∧ l.state = .disconnected := by
  obtain ⟨before, rest, rfl, hbefore⟩ := List.eq_append_cons_of_mem hmem
  have htell (input : LinkInput P) (links : List Nat) (b : Bridge C P) :
      b.Leads (links.foldl (·.feed · input) b) :=
    (Runs.foldl _ (fun b i => b.runs_feed i input) links b).leads
  obtain ⟨hlinks, hdials⟩ := feedAll_of_not_mem hbefore (.shutDown : LinkInput P) b
  unfold shutDown
  dsimp only
  generalize (before ++ link :: rest).filterMap _ = held
  rw [List.foldl_append, List.foldl_cons, List.foldl_append, List.foldl_cons]
  generalize before.foldl (·.feed · .shutDown) b = begun at hlinks hdials ⊢
  -- the others are told, the closes are awaited, and the first ones are told that they are closed
  generalize hmid : before.foldl (·.feed · .closed)
    ((rest.foldl (·.feed · .shutDown) (begun.feed link .shutDown)).awaitCloses held) = mid
  obtain ⟨asked, hclosing⟩ : (begun.feed link .shutDown).Leads mid := by
    rw [← hmid]
    exact ((htell .shutDown rest _).trans (runs_awaitCloses _ held).leads).trans
      (htell .closed before _)
  obtain ⟨asked', hrest⟩ := htell .closed rest (mid.feed link .closed)
  obtain ⟨hover, -⟩ := has_feed_shutDown (hlinks.trans h)
  obtain ⟨l', hl', hover', -⟩ := hover.proceeds (final_attempts _) hclosing
  exact ⟨⟨begun, _, hlinks.trans h, hdials, (hclosing.tell link .closed).trans hrest⟩,
    (Has.feed_closed ⟨l', hl', hover'⟩).proceeds final_disconnected hrest⟩

/-- To disconnect from a peer, or from all of them, shuts the link down that the peer has, and the
    peer has none in the end. -/
theorem disconnected_of_linked (h : b.links[link]? = some (peer, l))
    (hlinked : b.linked.get? peer = some link) {ended : Bridge C P}
    (hended : ended = (b.disconnect peer).2 ∨ ended = b.disconnectAll) :
    (∃ (begun : Bridge C P) (asked : _), begun.links[link]? = some (peer, l) ∧
      begun.dials.filter (·.1 = link) = b.dials.filter (·.1 = link) ∧
      Proceeds (begun.feed link .shutDown) asked ended) ∧
    (ended.Has link peer fun l => l.Over ∧ l.state = .disconnected) ∧
    ended.linked.get? peer = none ∧ ended.peers = b.peers := by
  rcases hended with rfl | rfl
  · rw [disconnect_of_linked hlinked]
    obtain ⟨hbegun, hover⟩ := shutDown_of_mem (b := { b with linked := b.linked.erase peer })
      List.mem_cons_self h
    refine ⟨hbegun, hover, ?_, ?_⟩
    · rw [(runs_shutDown _ [link]).linked, Dict.get?_erase, if_pos rfl]
    · obtain ⟨asked, hproceeds⟩ := (runs_shutDown { b with linked := b.linked.erase peer } [link]).leads
      exact hproceeds.peers
  · have hmem : link ∈ b.linked.values :=
      List.mem_map.mpr ⟨(peer, link), Dict.mem_entries.mpr hlinked, rfl⟩
    obtain ⟨hbegun, hover⟩ := shutDown_of_mem (b := { b with linked := Dict.empty }) hmem h
    refine ⟨hbegun, hover, ?_, ?_⟩
    · show ({ b with linked := Dict.empty }.shutDown b.linked.values).linked.get? peer = none
      rw [(runs_shutDown _ b.linked.values).linked, Dict.get?_empty]
    · obtain ⟨asked, hproceeds⟩ := b.leads_disconnectAll
      exact hproceeds.peers

/-- Whatever state a link is in, to shut it down is final.

    * From then on the link does nothing any more, whatever becomes of its bridge.
    * Once it is told that its client is closed, it is disconnected for good.
    * To disconnect from its peer, or from all peers, does this to it. In the end the peer has no
      link, and it never gets this one back: if it is connected to again, it gets a new link. What
      this one is told changes nothing but itself, and reaches nobody but observers of packets.

    A link decides while it is locked, and observers are told after it is unlocked. Here both are one
    step, so this is about what happens to the link after the step that shut it down; observers who
    were about to be told of an earlier step may hear of it while the link is shut down. -/
theorem shutDown_for_good (h : b.links[link]? = some (peer, l)) :
    (b.feed link .shutDown).Silent link peer l.attempts (b.dials.filter (·.1 = link)) ∧
    (∀ asked mid asked' after, Proceeds (b.feed link .shutDown) asked mid →
      Proceeds (mid.feed link .closed) asked' after →
      ∃ l', after.links[link]? = some (peer, l') ∧ l'.state = .disconnected) ∧
    (b.linked.get? peer = some link →
      ∀ ended, ended = (b.disconnect peer).2 ∨ ended = b.disconnectAll →
        (∃ begun asked, begun.links[link]? = some (peer, l) ∧
          Proceeds (Bridge.feed begun link .shutDown) asked ended) ∧
        ended.Silent link peer l.attempts (b.dials.filter (·.1 = link)) ∧
        ended.linked.get? peer = none ∧
        ∀ asked after, Proceeds ended asked after →
          (∃ l', after.links[link]? = some (peer, l') ∧ l'.state = .disconnected) ∧
          after.linked.get? peer ≠ some link ∧
          ((b.peers.get? peer).isSome → after.linked.get? peer = none →
            ∃ link', link' ≠ link ∧ (after.connect peer).2.linked.get? peer = some link' ∧
              (after.connect peer).2.links[link']? = some (peer, firstLink (P := P) peer)) ∧
          ∀ input, ∃ l' observers metrics, after.feed link input = { after with
            links := after.links.set link (peer, l')
            observers
            hub := { after.hub with metrics } }) := by
  obtain ⟨hover, hdials⟩ := has_feed_shutDown h
  refine ⟨hdials ▸ hover.silent, ?_, ?_⟩
  · intro asked mid asked' after hmid hafter
    obtain ⟨l', hl', hover', -⟩ := hover.proceeds (final_attempts _) hmid
    obtain ⟨l', hl', -, hstate⟩ :=
      (Has.feed_closed ⟨l', hl', hover'⟩).proceeds final_disconnected hafter
    exact ⟨l', hl', hstate⟩
  · intro hlinked ended hended
    obtain ⟨⟨begun, asked, hbegun, hbegunDials, hproceeds⟩, hdown, hnone, hpeers⟩ :=
      disconnected_of_linked h hlinked hended
    obtain ⟨hbegunOver, hshutDials⟩ := has_feed_shutDown hbegun
    obtain ⟨-, hendedDials⟩ := hbegunOver.quiet (final_attempts _) hproceeds
    have hsilent := (hbegunOver.proceeds (final_attempts _) hproceeds).silent
    rw [hendedDials, hshutDials, hbegunDials] at hsilent
    refine ⟨⟨begun, asked, hbegun, hproceeds⟩, hsilent, hnone, fun asked' after hafter => ?_⟩
    obtain ⟨l', hl', hover', hstate⟩ := hdown.proceeds final_disconnected hafter
    have hlost : ended.linked.get? peer ≠ some link := by
      rw [hnone]
      exact nofun
    refine ⟨⟨l', hl', hstate⟩, hdown.unlinked final_disconnected hafter hlost, ?_, fun input => ?_⟩
    · intro hpeer hfree
      have hpeer' : (after.peers.get? peer).isSome := by rwa [hafter.peers, hpeers]
      obtain ⟨hnew, hfirst⟩ := connect_of_unlinked hpeer' hfree
      exact ⟨after.links.length, Nat.ne_of_gt (Has.lt ⟨l', hl', hover'⟩), hnew, hfirst⟩
    · obtain ⟨next, observers, metrics, -, hfeed⟩ := feed_of_over hl' hover' input
      exact ⟨next, observers, metrics, hfeed⟩

end Operations

/-- The bridge of a node that knows one peer. -/
def lobby : Bridge Unit Ping where
  localId := "lobby-1"
  peers := ⟨[("game-1", { host := "127.0.0.1", port := 7101 })], List.pairwise_singleton _ _⟩
  settings := {}
  hub := { codec := .ofRegistry .empty }
  network := { plans := Dict.empty }
  makeContext := fun _ => ()
  clock := 0

/-- The link to a peer is disconnected while its session is active, and the peer is connected to
    again. -/
theorem shutDown_while_connected :
    let b := (lobby.connect "game-1").2.feed 0 (.active 1)
    let ended := (b.disconnect "game-1").2
    b.links[0]? = some ("game-1",
      { state := .connected, held := some 1, generation := 1, attempts := 1 }) ∧
    b.linked.get? "game-1" = some 0 ∧
    ended.Silent 0 "game-1" 1 [(0, 1)] ∧
    ∃ link, link ≠ 0 ∧ (ended.connect "game-1").2.linked.get? "game-1" = some link ∧
      (ended.connect "game-1").2.links[link]? = some ("game-1",
        { state := .connecting, held := some 1, generation := 1, attempts := 1 }) := by
  intro b ended
  have hlink : b.links[0]? = some ("game-1",
      { state := .connected, held := some 1, generation := 1, attempts := 1 }) := rfl
  have hlinked : b.linked.get? "game-1" = some 0 := rfl
  obtain ⟨-, -, hended⟩ := shutDown_for_good hlink
  obtain ⟨-, hsilent, hnone, hlater⟩ := hended hlinked ended (.inl rfl)
  obtain ⟨-, -, hnew, -⟩ := hlater [] ended .start
  refine ⟨hlink, hlinked, hsilent, ?_⟩
  exact hnew rfl hnone

end Bridge
end ShardMesh
