import Mathlib
import ShardMesh.Bridge.Basic
import ShardMesh.Compression.Standard
import ShardMesh.Proofs.Shard.Range

/-!
# Which peer a key is routed to

What is said about the ranges of peers can be told from all else that is said about them, and it is
said exactly if a range is empty or a key has two peers. As a bridge is only built if nothing at all
is said, looking for the first peer that has a key then finds the only one (`routed_to_only_peer`).
-/

namespace ShardMesh

/-! ## Complaints about ranges -/

/-- How a complaint about an empty range ends. -/
def emptyRangeEnding : String := " is empty (start > end)"

/-- How a complaint about ranges that overlap begins. -/
def overlapBeginning : String := "Peer key ranges overlap: "

/-- Whether a complaint about peers is about their ranges: that one is empty, or that two overlap. -/
def IsRangeComplaint (complaint : String) : Prop :=
  emptyRangeEnding.toList <:+ complaint.toList ∨ overlapBeginning.toList <+: complaint.toList

instance (complaint : String) : Decidable (IsRangeComplaint complaint) :=
  inferInstanceAs (Decidable (_ ∨ _))

/-- A complaint that begins with a peer's name is about its range only if it ends with a bracket. -/
theorem not_isRangeComplaint {name ending : String} {c : Char}
    (hending : ending.toList.getLast? = some c) (hlast : c ≠ ')') :
    ¬IsRangeComplaint ("Peer '" ++ name ++ ending) := by
  rw [IsRangeComplaint, String.toList_append, String.toList_append]
  rintro (⟨before, h⟩ | h)
  · have hbracket : emptyRangeEnding.toList.getLast? = some ')' := by decide
    have hsame := congrArg List.getLast? h
    rw [List.getLast?_append, List.getLast?_append, hbracket, hending] at hsame
    exact hlast (Option.some.inj hsame).symm
  · simp [overlapBeginning] at h

namespace PeerConfig

/-- Of a peer alone, a complaint is about its range exactly if this is empty. -/
theorem range_complaint_iff {localId name : String} {p : PeerConfig} :
    (∃ c ∈ p.complaints localId name, IsRangeComplaint c) ↔
      ∃ r, p.keyRange = some r ∧ ¬r.first ≤ r.last := by
  have hunnamed : ¬IsRangeComplaint "Peer id cannot be empty" := by decide
  have hsame : ¬IsRangeComplaint ("Peer '" ++ name ++ "' has the same id as this server") :=
    not_isRangeComplaint (c := 'r') (by decide) (by decide)
  have hhost : ¬IsRangeComplaint ("Peer '" ++ name ++ "' has an empty host") :=
    not_isRangeComplaint (c := 't') (by decide) (by decide)
  have hport : ¬IsRangeComplaint ("Peer '" ++ name ++ "' has port 0") :=
    not_isRangeComplaint (c := '0') (by decide) (by decide)
  constructor
  · rintro ⟨c, hc, hrange⟩
    simp only [complaints, List.mem_append, mem_complainIf] at hc
    rcases hc with (((⟨-, rfl⟩ | ⟨-, rfl⟩) | ⟨-, rfl⟩) | ⟨-, rfl⟩) | hc
    · exact absurd hrange hunnamed
    · exact absurd hrange hsame
    · exact absurd hrange hhost
    · exact absurd hrange hport
    · cases hkeys : p.keyRange with
      | none => simp [hkeys] at hc
      | some r =>
        rw [hkeys] at hc
        obtain ⟨hempty, -⟩ := mem_complainIf.mp hc
        exact ⟨r, rfl, by simpa [KeyRange.isValid] using hempty⟩
  · rintro ⟨r, hkeys, hempty⟩
    refine ⟨"Peer '" ++ name ++ "' key range " ++ r.text ++ emptyRangeEnding, ?_, .inl ?_⟩
    · rw [complaints, List.mem_append, hkeys]
      exact .inr (mem_complainIf.mpr ⟨by simpa [KeyRange.isValid] using hempty, rfl⟩)
    · rw [String.toList_append]
      exact List.suffix_append _ _

end PeerConfig

namespace PeerTable

variable {t : PeerTable} {localId name name' : String} {key : UInt64}

/-- A peer has a range. -/
def HasRange (t : PeerTable) (name : String) (r : KeyRange) : Prop :=
  ∃ p, (name, p) ∈ t.entries ∧ p.keyRange = some r

/-- A peer has a range with a key in it. -/
def Routes (t : PeerTable) (name : String) (key : UInt64) : Prop :=
  ∃ r, t.HasRange name r ∧ r.first ≤ key ∧ key ≤ r.last

/-- No two peers have a key in common. -/
def Unambiguous (t : PeerTable) : Prop :=
  ∀ key name name', t.Routes name key → t.Routes name' key → name = name'

theorem mem_owned (row : KeyRange × String) : row ∈ t.owned ↔ t.HasRange row.2 row.1 := by
  simp only [owned, HasRange, List.mem_filterMap, Option.map_eq_some_iff]
  constructor
  · rintro ⟨e, he, r, hr, rfl⟩
    exact ⟨e.2, he, hr⟩
  · rintro ⟨p, hp, hr⟩
    exact ⟨(row.2, p), hp, row.1, hr, rfl⟩

/-- Each peer has one range at most, as the names of peers ascend. -/
theorem pairwise_ne_owned (t : PeerTable) : t.owned.Pairwise fun a b => a.2 ≠ b.2 := by
  refine List.pairwise_filterMap.mpr (t.ascending.imp fun {e e'} hlt row hrow row' hrow' => ?_)
  obtain ⟨r, -, rfl⟩ := Option.map_eq_some_iff.mp hrow
  obtain ⟨r', -, rfl⟩ := Option.map_eq_some_iff.mp hrow'
  exact String.ne_of_lt hlt

/-- The owned ranges are disjoint in pairs exactly if no key has two peers. -/
theorem pairwise_disjoint_owned_iff :
    (t.owned.Pairwise fun a b => a.1.Disjoint b.1) ↔ t.Unambiguous := by
  constructor
  · rintro h key name name' ⟨r, hr, hkey⟩ ⟨r', hr', hkey'⟩
    have hsymm : Std.Symm fun a b : KeyRange × String => a.1.Disjoint b.1 :=
      ⟨fun _ _ hab => hab.symm⟩
    by_contra hne
    have hdisjoint : r.Disjoint r' := h.forall ((mem_owned (r, name)).mpr hr)
      ((mem_owned (r', name')).mpr hr') fun hsame => hne (congrArg Prod.snd hsame)
    exact hdisjoint key ⟨KeyRange.contains_iff.mpr hkey, KeyRange.contains_iff.mpr hkey'⟩
  · intro h
    refine t.pairwise_ne_owned.imp_of_mem fun {a b} ha hb hne key hkey => hne ?_
    exact h key a.2 b.2 ⟨a.1, (mem_owned a).mp ha, KeyRange.contains_iff.mp hkey.1⟩
      ⟨b.1, (mem_owned b).mp hb, KeyRange.contains_iff.mp hkey.2⟩

/-- Nothing is said about ranges exactly if none is empty and no key has two peers. -/
theorem no_range_complaint_iff :
    (∀ c ∈ t.complaints localId, ¬IsRangeComplaint c) ↔
      (∀ name r, t.HasRange name r → r.first ≤ r.last) ∧ t.Unambiguous := by
  have halone : (∀ c ∈ t.entries.flatMap (fun e => e.2.complaints localId e.1),
      ¬IsRangeComplaint c) ↔ ∀ name r, t.HasRange name r → r.first ≤ r.last := by
    constructor
    · rintro h name r ⟨p, hp, hr⟩
      by_contra hempty
      obtain ⟨c, hc, hrange⟩ := PeerConfig.range_complaint_iff.mpr ⟨r, hr, hempty⟩
      exact h c (List.mem_flatMap.mpr ⟨(name, p), hp, hc⟩) hrange
    · intro h c hc hrange
      obtain ⟨⟨name, p⟩, hp, hc⟩ := List.mem_flatMap.mp hc
      obtain ⟨r, hr, hempty⟩ := PeerConfig.range_complaint_iff.mp ⟨c, hc, hrange⟩
      exact hempty (h name r ⟨p, hp, hr⟩)
  rw [complaints, List.forall_mem_append, halone]
  -- the clash is only what it should be among ranges none of which is empty
  refine and_congr_right fun hvalid => ?_
  have hvalid : ∀ row ∈ t.owned, row.1.isValid := fun row hrow =>
    KeyRange.isValid_iff.mpr (hvalid row.2 row.1 ((mem_owned row).mp hrow))
  rw [← pairwise_disjoint_owned_iff, ← findClash?_eq_none_iff hvalid]
  cases findClash? t.owned with
  | none => exact iff_of_true (List.forall_mem_nil _) rfl
  | some clash =>
    refine iff_of_false (fun h => h _ List.mem_cons_self (.inr ?_)) nofun
    simp only [String.toList_append, List.append_assoc]
    simp [overlapBeginning]

/-! ## Looking for the peer -/

theorem routes_iff : t.Routes name key ↔ ∃ p, (name, p) ∈ t.entries ∧ p.ownsKey key := by
  simp only [Routes, HasRange, PeerConfig.ownsKey, Option.any_eq_true, KeyRange.contains_iff]
  constructor
  · rintro ⟨r, ⟨p, hp, hr⟩, hkey⟩
    exact ⟨p, hp, r, hr, hkey⟩
  · rintro ⟨p, hp, r, hr, hkey⟩
    exact ⟨r, ⟨p, hp, hr⟩, hkey⟩

theorem routes_of_ownerOf? (h : t.ownerOf? key = some name) : t.Routes name key := by
  obtain ⟨e, hfound, rfl⟩ := Option.map_eq_some_iff.mp h
  have howns : e.2.ownsKey key = true :=
    List.find?_some (p := fun e : String × PeerConfig => e.2.ownsKey key) hfound
  exact routes_iff.mpr ⟨e.2, List.mem_of_find?_eq_some hfound, howns⟩

theorem ownerOf?_eq_none_iff : t.ownerOf? key = none ↔ ∀ name, ¬t.Routes name key := by
  constructor
  · intro h name hroutes
    obtain ⟨p, hp, howns⟩ := routes_iff.mp hroutes
    exact List.find?_eq_none.mp (Option.map_eq_none_iff.mp h) (name, p) hp howns
  · intro h
    cases hfound : t.ownerOf? key with
    | none => rfl
    | some name => exact absurd (routes_of_ownerOf? hfound) (h name)

/-- If no key has two peers, the first peer that is found is the only one. -/
theorem Unambiguous.ownerOf?_eq_some_iff (h : t.Unambiguous) :
    t.ownerOf? key = some name ↔ t.Routes name key := by
  refine ⟨routes_of_ownerOf?, fun hroutes => ?_⟩
  cases hfound : t.ownerOf? key with
  | none => exact absurd hroutes (ownerOf?_eq_none_iff.mp hfound name)
  | some other => rw [h key other name (routes_of_ownerOf? hfound) hroutes]

end PeerTable

/-! ## The bridge -/

namespace Bridge

variable {C P : Type}

/-- A bridge is built if nothing is wrong with its peers and something can run in the background. -/
theorem build_eq_ok_iff {localId : String} {peers : PeerTable} {settings : BridgeSettings}
    {background : Bool} {hub : Hub P} {network : Network} {makeContext : Nat → C} {clock : UInt64}
    {b : Bridge C P} :
    build localId peers settings background hub network makeContext clock = .ok b ↔
      peers.complaints localId = [] ∧ background = true ∧
        b = { localId, peers, settings, hub, network, makeContext, clock } := by
  unfold build
  cases peers.complaints localId with
  | nil => cases background <;> simp [eq_comm]
  | cons complaint complaints => simp

/-- Something is said about the ranges of peers exactly if one is empty or a key lies in those of two
    peers. And of every bridge that is built for peers, a key is routed to a peer exactly if this has
    a range with the key; then no other peer has one, and the key is routed to nobody exactly if no
    peer has one. -/
theorem routed_to_only_peer (localId : String) (peers : PeerTable) :
    ((∀ c ∈ peers.complaints localId, ¬IsRangeComplaint c) ↔
      (∀ name r, peers.HasRange name r → r.first ≤ r.last) ∧
        ∀ key name name', peers.Routes name key → peers.Routes name' key → name = name') ∧
    ∀ settings background hub network makeContext clock, ∀ b : Bridge C P,
      build localId peers settings background hub network makeContext clock = .ok b →
      ∀ key,
        (∀ name, b.peers.ownerOf? key = some name ↔ peers.Routes name key) ∧
        (∀ name other, peers.Routes name key → peers.Routes other key → name = other) ∧
        (b.peers.ownerOf? key = none ↔ ∀ name, ¬peers.Routes name key) := by
  refine ⟨PeerTable.no_range_complaint_iff, ?_⟩
  intro settings background hub network makeContext clock b hbuilt key
  obtain ⟨hnone, -, rfl⟩ := build_eq_ok_iff.mp hbuilt
  have hquiet : ∀ c ∈ peers.complaints localId, ¬IsRangeComplaint c := by
    rw [hnone]
    exact List.forall_mem_nil _
  have hunambiguous : peers.Unambiguous := (PeerTable.no_range_complaint_iff.mp hquiet).2
  exact ⟨fun _ => hunambiguous.ownerOf?_eq_some_iff, hunambiguous key,
    PeerTable.ownerOf?_eq_none_iff⟩

/-- Peers with the least key, with the largest key, with a range between, and with no range. -/
def farPeers : PeerTable where
  entries := [("first", { host := "a", port := 1, keyRange := some ⟨0, 0⟩ }),
    ("last", { host := "b", port := 2, keyRange := some ⟨18446744073709551615, 18446744073709551615⟩ }),
    ("middle", { host := "c", port := 3, keyRange := some ⟨5, 18446744073709551614⟩ }),
    ("quiet", { host := "d", port := 4 })]
  ascending := by decide

/-- The extreme keys have their peers, and a key in the gap has none. -/
theorem routed_at_extremes :
    ∃ b : Bridge Unit Ping,
      build "lobby-1" farPeers {} true { codec := .ofRegistry .empty } { plans := Dict.empty }
        (fun _ => ()) 0 = .ok b ∧
      b.peers.ownerOf? 0 = some "first" ∧
      b.peers.ownerOf? 18446744073709551615 = some "last" ∧ b.peers.ownerOf? 4 = none := by
  have hquiet : farPeers.complaints "lobby-1" = [] := by cbv
  let hub : Hub Ping := { codec := .ofRegistry .empty }
  let network : Network := { plans := Dict.empty }
  have hbuilt : build "lobby-1" farPeers {} true hub network (fun _ => ()) 0 = .ok
      { localId := "lobby-1", peers := farPeers, settings := {}, hub, network
        makeContext := fun _ => (), clock := 0 } :=
    build_eq_ok_iff.mpr ⟨hquiet, rfl, rfl⟩
  have hrouted := (routed_to_only_peer "lobby-1" farPeers).2 _ _ _ _ _ _ _ hbuilt
  have hfirst : farPeers.Routes "first" 0 :=
    ⟨⟨0, 0⟩, ⟨_, List.mem_cons_self, rfl⟩, by decide, by decide⟩
  have hlast : farPeers.Routes "last" 18446744073709551615 :=
    ⟨_, ⟨_, List.mem_cons_of_mem _ List.mem_cons_self, rfl⟩, by decide, by decide⟩
  refine ⟨_, hbuilt, ((hrouted 0).1 _).mpr hfirst, ((hrouted _).1 _).mpr hlast,
    (hrouted 4).2.2.mpr ?_⟩
  rintro name hname
  obtain ⟨p, hp, howns⟩ := PeerTable.routes_iff.mp hname
  have hnone : ∀ e ∈ farPeers.entries, e.2.ownsKey 4 = false := by decide
  rw [hnone _ hp] at howns
  cases howns

end Bridge
end ShardMesh
