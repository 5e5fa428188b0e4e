import ShardMesh.Packet.Registry
import ShardMesh.Proofs.Attempts

/-!
# Places of packet kinds

A registry that was built kind by kind holds every kind once and no more kinds than a byte can tell
apart. So the place of a kind is the only one, and one byte is enough for it: looking a kind up and
making a packet of the kind at a place undo each other.
-/

namespace ShardMesh.PacketRegistry

variable {P : Type} [Packet P]

/-- No kind is there twice, and every place has a byte. -/
structure Distinct (r : PacketRegistry P) : Prop where
  /-- No two packets of the registry are of one kind. -/
  nodup : (r.kinds.map Packet.kind).Nodup
  /-- There are as many kinds as bytes at most. -/
  bounded : r.kinds.length ≤ maxPacketKinds

theorem distinct_empty : (empty : PacketRegistry P).Distinct :=
  ⟨List.nodup_nil, Nat.zero_le _⟩

/-- A kind that is accepted is new, finds a place, and is put at the end. -/
theorem register_eq_ok {r r' : PacketRegistry P} {fresh : P} (h : r.register fresh = .ok r') :
    Packet.kind fresh ∉ r.kinds.map Packet.kind ∧ r.kinds.length < maxPacketKinds ∧
      r'.kinds = r.kinds ++ [fresh] := by
  unfold register at h
  split at h
  · cases h
  · rename_i hnew
    split at h
    · cases h
    · rename_i hroom
      cases h
      refine ⟨fun hmem => hnew ?_, by omega, rfl⟩
      obtain ⟨k, hk, hkind⟩ := List.mem_map.mp hmem
      exact List.any_eq_true.mpr ⟨k, hk, by simpa using hkind⟩

theorem Distinct.register {r r' : PacketRegistry P} {fresh : P} (hr : r.Distinct)
    (h : r.register fresh = .ok r') : r'.Distinct := by
  obtain ⟨hnew, hroom, hkinds⟩ := register_eq_ok h
  constructor
  · rw [hkinds, List.map_append, List.map_singleton, List.nodup_append]
    refine ⟨hr.nodup, List.pairwise_singleton _ _, fun a ha b hb => ?_⟩
    rintro rfl
    exact hnew (List.mem_singleton.mp hb ▸ ha)
  · rw [hkinds, List.length_append, List.length_singleton]
    exact hroom

/-- Kinds that are registered one after the other are put behind those that were there. -/
theorem foldlM_register_eq_ok {fresh : List P} {r r' : PacketRegistry P} (hr : r.Distinct)
    (h : fresh.foldlM register r = .ok r') : r'.Distinct ∧ r'.kinds = r.kinds ++ fresh := by
  induction fresh generalizing r with
  | nil =>
    cases h
    exact ⟨hr, (List.append_nil _).symm⟩
  | cons first fresh ih =>
    rw [List.foldlM_cons] at h
    cases hfirst : r.register first with
    | error e => rw [hfirst] at h; cases h
    | ok next =>
      rw [hfirst] at h
      obtain ⟨hdistinct, hkinds⟩ := ih (hr.register hfirst) h
      refine ⟨hdistinct, ?_⟩
      rw [hkinds, (register_eq_ok hfirst).2.2, List.append_assoc, List.singleton_append]

/-- The registry of a list of kinds has them in the order of the list. -/
theorem ofList_eq_ok {fresh : List P} {r : PacketRegistry P} (h : ofList fresh = .ok r) :
    r.Distinct ∧ r.kinds = fresh := by
  obtain ⟨hdistinct, hkinds⟩ := foldlM_register_eq_ok distinct_empty h
  exact ⟨hdistinct, hkinds.trans (List.nil_append _)⟩

/-- The byte of a place stands for the place. -/
theorem Distinct.toNat_place {r : PacketRegistry P} (hr : r.Distinct) {i : Nat}
    (hi : i < r.kinds.length) : (UInt8.ofNat i).toNat = i := by
  have hbound := Nat.lt_of_lt_of_le hi hr.bounded
  rw [maxPacketKinds] at hbound
  rw [UInt8.toNat_ofNat']
  omega

/-- The place of a kind is where a packet of this kind stands. -/
theorem Distinct.indexOf?_kind {r : PacketRegistry P} (hr : r.Distinct) {i : Nat} {fresh : P}
    (h : r.kinds[i]? = some fresh) : r.indexOf? (Packet.kind fresh) = some (UInt8.ofNat i) := by
  obtain ⟨hi, rfl⟩ := List.getElem?_eq_some_iff.mp h
  have hfind : r.kinds.findIdx? (fun k => Packet.kind k = Packet.kind r.kinds[i]) = some i := by
    rw [List.findIdx?_eq_some_iff_getElem]
    refine ⟨hi, by simp, fun j hj => ?_⟩
    have hne := List.pairwise_iff_getElem.mp hr.nodup j i (by simp; omega) (by simpa using hi) hj
    simpa using hne
  rw [indexOf?, hfind, Option.map_some]

/-- The packet that is made at the place of a kind is the registered one. -/
theorem Distinct.instantiate?_place {r : PacketRegistry P} (hr : r.Distinct) {i : Nat} {fresh : P}
    (h : r.kinds[i]? = some fresh) : r.instantiate? (UInt8.ofNat i) = some fresh := by
  rw [instantiate?, hr.toNat_place (List.getElem?_eq_some_iff.mp h).1, h]

/-! ## Registering in a row -/

/-- What registering answers, in a registry without duplicates. -/
theorem Distinct.register_eq {r : PacketRegistry P} (hr : r.Distinct) (fresh : P) :
    r.register fresh =
      if Packet.kind fresh ∈ r.kinds.map Packet.kind then
        .error (.duplicatePacket (Packet.kindName fresh))
      else if r.kinds.length = 256 then .error (.registryFull 256)
      else .ok ⟨r.kinds ++ [fresh]⟩ := by
  have hknown : r.kinds.any (fun k => Packet.kind k = Packet.kind fresh) = true ↔
      Packet.kind fresh ∈ r.kinds.map Packet.kind := by simp
  have hfull : maxPacketKinds ≤ r.kinds.length ↔ r.kinds.length = 256 := by
    have hbounded := hr.bounded
    rw [maxPacketKinds] at *
    omega
  unfold PacketRegistry.register
  by_cases hmem : Packet.kind fresh ∈ r.kinds.map Packet.kind
  · rw [if_pos (hknown.mpr hmem), if_pos hmem]
  · rw [if_neg (mt hknown.mp hmem), if_neg hmem]
    by_cases hlength : r.kinds.length = 256
    · rw [if_pos (hfull.mpr hlength), if_pos hlength]
      rfl
    · rw [if_neg (mt hfull.mp hlength), if_neg hlength]

theorem Distinct.attempts_singleton {r : PacketRegistry P} (hr : r.Distinct) (fresh : P) :
    attempts PacketRegistry.register r [fresh] =
      if Packet.kind fresh ∈ r.kinds.map Packet.kind then
        ([.error (.duplicatePacket (Packet.kindName fresh))], r)
      else if r.kinds.length = 256 then ([.error (.registryFull 256)], r)
      else ([.ok ()], ⟨r.kinds ++ [fresh]⟩) := by
  have hanswer := hr.register_eq fresh
  by_cases hmem : Packet.kind fresh ∈ r.kinds.map Packet.kind
  · rw [if_pos hmem] at hanswer ⊢
    exact attempts_cons_of_error hanswer []
  · rw [if_neg hmem] at hanswer ⊢
    by_cases hlength : r.kinds.length = 256
    · rw [if_pos hlength] at hanswer ⊢
      exact attempts_cons_of_error hanswer []
    · rw [if_neg hlength] at hanswer ⊢
      exact attempts_cons_of_ok hanswer []

/-! ## Places and kinds -/

theorem indexOf?_eq_none_iff {r : PacketRegistry P} {kind : PacketKind} :
    r.indexOf? kind = none ↔ kind ∉ r.kinds.map Packet.kind := by
  simp [indexOf?, List.findIdx?_eq_none_iff]

omit [Packet P] in
theorem instantiate?_eq_none_iff {r : PacketRegistry P} {index : UInt8} :
    r.instantiate? index = none ↔ r.kinds.length ≤ index.toNat := List.getElem?_eq_none_iff

/-- Looking a kind up and making a packet of the kind at a place undo each other. -/
theorem Distinct.indexOf?_eq_some_iff {r : PacketRegistry P} (hr : r.Distinct) {kind : PacketKind}
    {index : UInt8} :
    r.indexOf? kind = some index ↔ (r.instantiate? index).map Packet.kind = some kind := by
  constructor
  · intro h
    obtain ⟨i, hfind, rfl⟩ := Option.map_eq_some_iff.mp h
    obtain ⟨hi, hkind, -⟩ := List.findIdx?_eq_some_iff_getElem.mp hfind
    rw [hr.instantiate?_place (List.getElem?_eq_getElem hi), Option.map_some]
    exact congrArg some (of_decide_eq_true hkind)
  · intro h
    obtain ⟨fresh, hfresh, rfl⟩ := Option.map_eq_some_iff.mp h
    rw [hr.indexOf?_kind hfresh, UInt8.ofNat_toNat]

/-- Kinds are registered in order, and a kind's place in this order is its index.

However many calls were made, of which any may have failed: one more call is refused as a duplicate if
its kind is there, also in a full registry, and otherwise because 256 kinds are there; if neither is so,
its kind is put behind the others. A registry is built if no call fails, and else the first failure is
what comes of it. In the registry, the kind at a place has the place for its index, for which a byte is
enough, and the index gives back the registered packet and its name. A kind that is not there has no
index, and no packet is made for an index behind the last. So looking kinds up and making packets undo
each other. -/
theorem indexed_in_order (calls : List P) :
    let (answers, r) := attempts register empty calls
    (∀ fresh, attempts register empty (calls ++ [fresh]) =
      if Packet.kind fresh ∈ r.kinds.map Packet.kind then
        (answers ++ [.error (.duplicatePacket (Packet.kindName fresh))], r)
      else if r.kinds.length = 256 then (answers ++ [.error (.registryFull 256)], r)
      else (answers ++ [.ok ()], ⟨r.kinds ++ [fresh]⟩)) ∧
    ofList calls = (answers.forM id).map (fun _ => r) ∧
    r.kinds.length ≤ 256 ∧
    (∀ i fresh, r.kinds[i]? = some fresh → ∃ index : UInt8, index.toNat = i ∧
      r.indexOf? (Packet.kind fresh) = some index ∧ r.instantiate? index = some fresh ∧
      r.nameOf? index = some (Packet.kindName fresh)) ∧
    (∀ kind, kind ∉ r.kinds.map Packet.kind → r.indexOf? kind = none) ∧
    (∀ index : UInt8, r.kinds.length ≤ index.toNat →
      r.instantiate? index = none ∧ r.nameOf? index = none) ∧
    ∀ kind index,
      r.indexOf? kind = some index ↔ (r.instantiate? index).map Packet.kind = some kind := by
  have hr : (attempts register empty calls).2.Distinct :=
    attempts_invariant (fun _ _ _ hs hnext => hs.register hnext) distinct_empty calls
  have hbuilt : ofList calls = _ := foldlM_eq_attempts register empty calls
  have happend := attempts_append register empty calls
  generalize attempts register empty calls = run at hr hbuilt happend ⊢
  obtain ⟨answers, r⟩ := run
  refine ⟨fun fresh => ?_, hbuilt, hr.bounded, fun i fresh hplace => ?_,
    fun kind => indexOf?_eq_none_iff.mpr, fun index hbehind => ?_,
    fun kind index => hr.indexOf?_eq_some_iff⟩
  · rw [happend, hr.attempts_singleton]
    split
    · rfl
    · split <;> rfl
  · have hfresh := hr.instantiate?_place hplace
    refine ⟨UInt8.ofNat i, hr.toNat_place (List.getElem?_eq_some_iff.mp hplace).1,
      hr.indexOf?_kind hplace, hfresh, ?_⟩
    rw [nameOf?, hfresh, Option.map_some]
  · have hnone := instantiate?_eq_none_iff.mpr hbehind
    exact ⟨hnone, by rw [nameOf?, hnone, Option.map_none]⟩

/-- A second kind keeps its place although the first one is refused when it comes again. -/
theorem indexed_behind_refusal :
    let ping : FieldPacket := .zero Ping.kind [.u64]
    let note : FieldPacket := .zero ⟨"chat::Note"⟩ [.text]
    let r : PacketRegistry FieldPacket := ⟨[ping, note]⟩
    attempts register empty [ping, note, ping] =
      ([.ok (), .ok (), .error (.duplicatePacket "Ping")], r) ∧
    ofList [ping, note, ping] = .error (.duplicatePacket "Ping") ∧
    (r.kinds[1]? = some note ∧ ∃ index : UInt8, index.toNat = 1 ∧
      r.indexOf? ⟨"chat::Note"⟩ = some index ∧ r.instantiate? index = some note ∧
      r.nameOf? index = some "Note") ∧
    (⟨"chat::Gone"⟩ ∉ r.kinds.map Packet.kind ∧ r.indexOf? ⟨"chat::Gone"⟩ = none) ∧
    r.kinds.length ≤ UInt8.toNat 2 ∧ r.instantiate? 2 = none := by
  intro ping note r
  have hping : Packet.kindName ping = "Ping" := by decide +kernel
  have hnote : Packet.kindName note = "Note" := by decide +kernel
  have hrun : attempts register empty [ping, note, ping] =
      ([.ok (), .ok (), .error (.duplicatePacket (Packet.kindName ping))], r) := rfl
  rw [hping] at hrun
  have hall := indexed_in_order [ping, note, ping]
  rw [hrun] at hall
  obtain ⟨-, hbuilt, -, hplaces, hunknown, hbehind, -⟩ := hall
  have hplace : r.kinds[1]? = some note := rfl
  have hgone : (⟨"chat::Gone"⟩ : PacketKind) ∉ r.kinds.map Packet.kind := by decide
  have htwo : r.kinds.length ≤ UInt8.toNat 2 := by decide
  have hindex := hplaces 1 note hplace
  rw [hnote] at hindex
  exact ⟨hrun, hbuilt, ⟨hplace, hindex⟩, ⟨hgone, hunknown _ hgone⟩, htwo, (hbehind 2 htwo).1⟩

end ShardMesh.PacketRegistry
