import ShardMesh.Proofs.Bridge.Sessions

/-!
# What observers are told about a peer

Whatever a link tells reaches all observers in the same order, however one of them takes it. So an
observer who looks on from the beginning hears of session after session, and of the packets that
come after the link was shut down.

`Watched` is a bridge with an observer who looks on.
-/

namespace ShardMesh

variable {C P : Type}

/-! ## Observers -/

namespace Observer

/-- An observer that was told more about a peer. -/
def hear (o : Observer P) (peer : String) (notices : List (LinkNotice P)) : Observer P :=
  { o with told := (notices.map (peer, ·)).reverse ++ o.told }

/-- Every observer is told, however the others take it. -/
theorem tellAll_observers (m : Metrics) (peer : String) (notice : LinkNotice P)
    (observers : List (Observer P)) :
    (tellAll m peer notice observers).1 = observers.map (·.hear peer [notice]) := by
  induction observers generalizing m with
  | nil => rfl
  | cons o rest ih =>
    rw [tellAll, List.map_cons, ← ih]
    rfl

theorem hear_hear (o : Observer P) (peer : String) (notices more : List (LinkNotice P)) :
    (o.hear peer notices).hear peer more = o.hear peer (notices ++ more) := by
  unfold hear
  rw [List.map_append, List.reverse_append, List.append_assoc]

theorem history_hear (o : Observer P) (peer : String) (notices : List (LinkNotice P)) :
    (o.hear peer notices).history peer = o.history peer ++ notices := by
  have hpeer : (notices.map (peer, ·)).filter (·.1 = peer) = notices.map (peer, ·) :=
    List.filter_eq_self.mpr fun told htold => by
      obtain ⟨notice, -, rfl⟩ := List.mem_map.mp htold
      exact decide_eq_true rfl
  unfold history hear
  rw [List.reverse_append, List.reverse_reverse, List.filter_append, List.map_append, hpeer,
    List.map_map]
  exact congrArg (_ ++ ·) (List.map_id notices)

theorem history_hear_of_ne (o : Observer P) {peer other : String} (hne : other ≠ peer)
    (notices : List (LinkNotice P)) : (o.hear other notices).history peer = o.history peer := by
  have hpeer : (notices.map (other, ·)).filter (·.1 = peer) = [] :=
    List.filter_eq_nil_iff.mpr fun told htold => by
      obtain ⟨notice, -, rfl⟩ := List.mem_map.mp htold
      exact fun heq => hne (of_decide_eq_true heq)
  unfold history hear
  rw [List.reverse_append, List.reverse_reverse, List.filter_append, List.map_append, hpeer]
  exact List.append_nil _

end Observer

namespace Bridge

variable {b b' : Bridge C P}

theorem apply_observers (b : Bridge C P) (link : Nat) (peer : String) (effect : LinkEffect P) :
    (b.apply link peer effect).observers =
      b.observers.map (·.hear peer effect.notice?.toList) := by
  have hsame : b.observers = b.observers.map (·.hear peer []) := (List.map_id _).symm
  cases effect with
  | dial generation =>
    rw [apply]
    cases b.peers.get? peer <;> exact hsame
  | discard => exact hsame
  | close generation =>
    rw [apply]
    cases b.lineOf? link generation with
    | none => exact hsame
    | some place =>
      refine Eq.trans ?_ hsame
      show (mapLine b place _).observers = _
      unfold mapLine withLine
      cases b.lines[place]? <;> rfl
  | countConnect => exact hsame
  | countRetry => exact hsame
  | notify notice => exact Observer.tellAll_observers b.hub.metrics peer notice b.observers

theorem applyAll_observers (link : Nat) (peer : String) (effects : List (LinkEffect P))
    (b : Bridge C P) :
    (effects.foldl (fun b e => b.apply link peer e) b).observers =
      b.observers.map (·.hear peer (effects.filterMap LinkEffect.notice?)) := by
  induction effects generalizing b with
  | nil => exact (List.map_id _).symm
  | cons effect rest ih =>
    rw [List.foldl_cons, ih, apply_observers, List.map_map]
    have hnotices : effect.notice?.toList ++ rest.filterMap LinkEffect.notice? =
        (effect :: rest).filterMap LinkEffect.notice? := by
      rw [List.filterMap_cons]
      cases effect.notice? <;> rfl
    refine List.map_congr_left fun o _ => ?_
    rw [← hnotices]
    exact o.hear_hear peer _ _

/-- What a link that is told something asks to be told goes to all observers. -/
theorem feed_observers {link : Nat} {peer : String} {l : Link}
    (h : b.links[link]? = some (peer, l)) (input : LinkInput P) :
    (b.feed link input).observers = b.observers.map (·.hear peer
      ((l.step b.now b.settings.reconnectDelay input).2.filterMap LinkEffect.notice?)) := by
  unfold feed
  rw [h]
  exact applyAll_observers link peer _ _

/-- A link of a bridge, and an observer who looks on from the beginning. Other observers come and go,
    and so do links to other peers. -/
inductive Watched (link : Nat) (peer name : String) : LinkRun P → Bridge C P → Prop where
  | start {b : Bridge C P} (hlink : b.links[link]? = some (peer, {}))
      (hobserver : ∃ o ∈ b.observers, o.name = name)
      (hnothing : ∀ o ∈ b.observers, o.name = name → o.history peer = []) :
      Watched link peer name .start b
  /-- The link is told something. -/
  | tell {run : LinkRun P} {b : Bridge C P} (h : Watched link peer name run b)
      (input : LinkInput P) (hpermits : run.Permits input) :
      Watched link peer name (run.tell b.now b.settings.reconnectDelay input) (b.feed link input)
  /-- A link to another peer is told something. -/
  | other {run : LinkRun P} {b : Bridge C P} (h : Watched link peer name run b) (other : Nat)
      (input : LinkInput P) (hother : ∀ entry, b.links[other]? = some entry → entry.1 ≠ peer) :
      Watched link peer name run (b.feed other input)
  /-- Something else goes on. -/
  | around {run : LinkRun P} {b b' : Bridge C P} (h : Watched link peer name run b)
      (hlink : b'.links[link]? = b.links[link]?) (hobservers : b'.observers = b.observers) :
      Watched link peer name run b'
  | subscribe {run : LinkRun P} {b b' : Bridge C P} (h : Watched link peer name run b)
      (observer : Observer P) (hadded : b.addObserver observer = .ok b') :
      Watched link peer name run b'
  | unsubscribe {run : LinkRun P} {b : Bridge C P} (h : Watched link peer name run b)
      {gone : String} (hgone : gone ≠ name) : Watched link peer name run (b.removeObserver gone).2

section Watched

variable {link : Nat} {peer name : String} {run : LinkRun P}

theorem Watched.course (h : Watched link peer name run b) : run.Course := by
  induction h with
  | start => exact .start
  | tell _ input hpermits ih => exact ih.tell _ _ input hpermits
  | other => assumption
  | around => assumption
  | subscribe => assumption
  | unsubscribe => assumption

theorem Watched.link_eq (h : Watched link peer name run b) :
    b.links[link]? = some (peer, run.link) := by
  induction h with
  | start hlink => exact hlink
  | @tell run b _ input _ ih =>
    obtain ⟨hlinks, -⟩ := feed_frame ih input
    obtain ⟨hlink, -⟩ := run.tell_eq b.now b.settings.reconnectDelay input
    obtain ⟨hlt, -⟩ := List.getElem?_eq_some_iff.mp ih
    rw [hlinks, hlink]
    exact List.getElem?_set_self hlt
  | other _ other input hother ih =>
    have hne : other ≠ link := by
      rintro rfl
      exact hother _ ih rfl
    rw [getElem?_feed_of_ne hne]
    exact ih
  | around _ hlink _ ih => exact hlink.trans ih
  | subscribe _ observer hadded ih =>
    unfold addObserver at hadded
    split at hadded
    · cases hadded
    · cases hadded
      exact ih
  | unsubscribe _ _ ih => exact ih

/-- The observer has heard all that observers of the link were told. -/
theorem Watched.history_eq (h : Watched link peer name run b) :
    (∃ o ∈ b.observers, o.name = name) ∧
      ∀ o ∈ b.observers, o.name = name → o.history peer = run.notices := by
  induction h with
  | start _ hobserver hnothing => exact ⟨hobserver, hnothing⟩
  | @tell run b h input _ ih =>
    obtain ⟨⟨o, ho, hname⟩, hhistory⟩ := ih
    obtain ⟨-, -, hnotices⟩ := run.tell_eq b.now b.settings.reconnectDelay input
    rw [feed_observers h.link_eq input, hnotices]
    refine ⟨⟨_, List.mem_map_of_mem ho, hname⟩, fun heard hheard hname => ?_⟩
    obtain ⟨o, ho, rfl⟩ := List.mem_map.mp hheard
    rw [o.history_hear, hhistory o ho hname]
  | @other run b h other input hother ih =>
    obtain ⟨⟨o, ho, hname⟩, hhistory⟩ := ih
    cases hentry : b.links[other]? with
    | none =>
      rw [feed_of_none hentry]
      exact ⟨⟨o, ho, hname⟩, hhistory⟩
    | some entry =>
      rw [feed_observers hentry input]
      refine ⟨⟨_, List.mem_map_of_mem ho, hname⟩, fun heard hheard hname => ?_⟩
      obtain ⟨o, ho, rfl⟩ := List.mem_map.mp hheard
      rw [o.history_hear_of_ne (hother entry hentry), hhistory o ho hname]
  | around _ _ hobservers ih =>
    rw [hobservers]
    exact ih
  | @subscribe run b b' _ observer hadded ih =>
    obtain ⟨⟨o, ho, hname⟩, hhistory⟩ := ih
    unfold addObserver at hadded
    split at hadded
    · cases hadded
    · rename_i hfree
      cases hadded
      refine ⟨⟨o, List.mem_append_left _ ho, hname⟩, fun heard hheard hheardName => ?_⟩
      rcases List.mem_append.mp hheard with hheard | hheard
      · exact hhistory heard hheard hheardName
      · -- a name that is taken is refused
        obtain rfl := List.mem_singleton.mp hheard
        exact absurd (List.any_eq_true.mpr ⟨o, ho, decide_eq_true (hname.trans hheardName.symm)⟩)
          hfree
  | @unsubscribe run b _ gone hgone ih =>
    obtain ⟨⟨o, ho, hname⟩, hhistory⟩ := ih
    refine ⟨⟨o, List.mem_filter.mpr ⟨ho, decide_eq_true ?_⟩, hname⟩, fun heard hheard hname => ?_⟩
    · rw [hname]
      exact hgone.symm
    · exact hhistory heard (List.mem_filter.mp hheard).1 hname

/-- What an observer was told about a peer who was there from the beginning, whatever became of the
    link and however observers took what they were told. Of what the link was told `before` it was
    shut down, the observer heard session after session: each one is up, has all the packets that
    arrived in it in their order, and is down, except that the last one may still be up. Of what the
    link was told `since`, the observer heard the packets of the latest generation.

    A link decides while it is locked, and observers are told after it is unlocked. Here both are one
    step, which is the case as long as one event of a link is processed after the other. -/
theorem Watched.sessions_then_late_packets (h : Watched link peer name run b) :
    (∃ o ∈ b.observers, o.name = name) ∧
      ∀ o ∈ b.observers, o.name = name →
        ∃ since before ended, ∃ up : Option Nat,
          run.told = since ++ before ∧ .shutDown ∉ before ∧
          (since = [] ∨ ∃ later, since = later ++ [.shutDown]) ∧
          (ended ++ up.toList).Pairwise (· < ·) ∧
          o.history peer =
            ended.flatMap (fun g => sessionNotices before g ++ [.down]) ++
              up.toList.flatMap (sessionNotices before) ++
              (packetsOf run.link.generation since).map .packet := by
  obtain ⟨hobserver, hhistory⟩ := h.history_eq
  refine ⟨hobserver, fun o ho hname => ?_⟩
  obtain ⟨since, before, position, notices, ended, htold⟩ := h.course.told
  refine ⟨since, before, ended, if position.1 = .connected then some position.2 else none,
    htold.told, htold.running, ?_, ?_, ?_⟩
  · rcases htold.phase with ⟨hnothing, -⟩ | ⟨-, hlater⟩
    · exact .inl hnothing
    · exact .inr hlater
  · refine List.pairwise_append.mpr ⟨htold.sessions.ascending, ?_, fun g hg up hup => ?_⟩
    · split
      · exact List.pairwise_singleton _ _
      · exact .nil
    · split at hup
      · rename_i hstate
        obtain rfl := List.mem_singleton.mp hup
        exact (htold.sessions.earlier g hg).2 (by rw [hstate]; nofun)
      · cases hup
  · rw [hhistory o ho hname, htold.notices_eq, htold.sessions.notices_eq]
    split
    · exact congrArg (_ ++ · ++ _) (List.append_nil _).symm
    · rfl

end Watched

/-- The bridge of a node with a link that was told nothing yet, and with an observer. -/
def watchedLobby : Bridge Unit Ping :=
  { lobby with
    links := [("game-1", {})]
    linked := Dict.empty.set "game-1" 0
    observers := [{ name := "monitor", react := fun _ _ => .panicked }] }

theorem watched_start : Watched 0 "game-1" "monitor" .start watchedLobby :=
  .start rfl ⟨_, List.mem_cons_self, rfl⟩ fun o ho _ => by
    obtain rfl := List.mem_singleton.mp ho
    rfl

/-- A packet arrives in a first session, which is lost, and the link is shut down in the second one
    while a packet of that waits. -/
theorem sessions_with_late_packet :
    ∃ (run : LinkRun Ping) (b : Bridge Unit Ping), Watched 0 "game-1" "monitor" run b ∧
      run.told = [.packet 2 ⟨8⟩, .shutDown, .active 2, .retryDue, .lost 1, .packet 1 ⟨7⟩, .active 1,
        .connect] ∧
      ∃ o ∈ b.observers, o.name = "monitor" ∧
        o.history "game-1" = [.up, .packet ⟨7⟩, .down, .up, .packet ⟨8⟩] ∧
        ∃ (since before : List (LinkInput Ping)) (ended : List Nat) (up : Option Nat),
          run.told = since ++ before ∧
          o.history "game-1" =
            ended.flatMap (fun g => sessionNotices before g ++ [.down]) ++
              up.toList.flatMap (sessionNotices before) ++
              (packetsOf run.link.generation since).map .packet := by
  have hconnect := watched_start.tell .connect (.inr trivial)
  have hactive := hconnect.tell (.active 1)
    (.inr ⟨by decide, by simp [LinkRun.tell, LinkRun.start], by simp [LinkRun.tell, LinkRun.start]⟩)
  have hpacket := hactive.tell (.packet 1 ⟨7⟩)
    (.inr ⟨by simp [LinkRun.tell], by simp [LinkRun.tell, LinkRun.start]⟩)
  have hlost := hpacket.tell (.lost 1)
    (.inr ⟨by simp [LinkRun.tell], by simp [LinkRun.tell, LinkRun.start]⟩)
  have hretry := hlost.tell .retryDue (.inr (List.cons_ne_nil _ _))
  have hsecond := hretry.tell (.active 2)
    (.inr ⟨by decide, by simp [LinkRun.tell, LinkRun.start], by simp [LinkRun.tell, LinkRun.start]⟩)
  have hshutDown := hsecond.tell .shutDown rfl
  have hlate := hshutDown.tell (.packet 2 ⟨8⟩) (.inl rfl)
  obtain ⟨⟨o, ho, hname⟩, hsessions⟩ := hlate.sessions_then_late_packets
  obtain ⟨since, before, ended, up, htold, -, -, -, hhistory⟩ := hsessions o ho hname
  refine ⟨_, _, hlate, rfl, o, ho, hname, ?_, since, before, ended, up, htold, hhistory⟩
  exact hlate.history_eq.2 o ho hname

/-- A packet that waits when a link is shut down is passed on, even if the beginning of its session
    is not. -/
theorem packet_told_after_shutDown :
    ∃ (run : LinkRun Ping) (b : Bridge Unit Ping), Watched 0 "game-1" "monitor" run b ∧
      run.told = [.packet 1 ⟨7⟩, .active 1, .shutDown, .connect] ∧
      (∀ o ∈ b.observers, o.name = "monitor" → o.history "game-1" = [.packet ⟨7⟩]) ∧
      ∀ (told : List (LinkInput Ping)) (ended : List Nat) (up : Option Nat),
        [.packet ⟨7⟩] ≠ ended.flatMap (fun g => sessionNotices told g ++ [.down]) ++
          up.toList.flatMap (sessionNotices told) := by
  have hconnect := watched_start.tell .connect (.inr trivial)
  have hshutDown := hconnect.tell .shutDown rfl
  have hactive := hshutDown.tell (.active 1) (.inl rfl)
  have hpacket := hactive.tell (.packet 1 ⟨7⟩) (.inl rfl)
  refine ⟨_, _, hpacket, rfl, hpacket.history_eq.2, ?_⟩
  intro told ended up heq
  cases ended with
  | nil =>
    cases up with
    | none => cases heq
    | some g => cases (List.cons.inj heq).1
  | cons g rest => cases (List.cons.inj heq).1

end Bridge

end ShardMesh
