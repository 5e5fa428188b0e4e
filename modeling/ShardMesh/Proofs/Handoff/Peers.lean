import ShardMesh.Config.Check
import ShardMesh.Proofs.Handoff.Token

/-!
# Handing players off to peers

A token names the node that issues it and the peer that a player is sent to, and neither name may
hold the character that separates the fields of a payload. Of the node's own name validation makes
sure of that. Of the names of peers it does not, so one that holds the delimiter can be configured,
and nobody can be sent there (`handed_off_iff`).
-/

namespace ShardMesh

/-- The name of a node with which nothing is wrong can stand in a token. -/
theorem ServerConfig.delimiter_not_mem_serverId {c : ServerConfig} (h : c.complaints = []) :
    Handoff.fieldDelimiter ∉ c.serverId.toList := by
  unfold complaints at h
  simp only [List.append_eq_nil_iff] at h
  obtain ⟨⟨⟨⟨⟨hname, -⟩, -⟩, -⟩, -⟩, -⟩ := h
  split at hname
  · cases hname
  · have hfree := complainIf_eq_nil_iff.mp hname
    exact fun hmem => Bool.false_ne_true (hfree.symm.trans (List.contains_iff_mem.mpr hmem))

namespace Handoff

theorem issueAt_of_mem {request : HandoffRequest} {secret : Bytes} {expirySeconds now : UInt64}
    {nonce : Bytes} (text : String)
    (htext : text ∈ [request.username, request.fromServer, request.toServer])
    (h : fieldDelimiter ∈ text.toList) :
    issueAt request secret expirySeconds now nonce = .error (.tokenRejected .reservedDelimiter) :=
  if_pos (List.any_eq_true (p := fun s : String => s.toList.contains fieldDelimiter).mpr
    ⟨text, htext, List.contains_iff_mem.mpr h⟩)

/-- A token that is issued is good at the time of issue, and says what was asked for. -/
theorem issued_is_good (request : HandoffRequest) (secret : Bytes)
    (expirySeconds now : UInt64) (nonce : Bytes)
    (h : ∀ text ∈ [request.username, request.fromServer, request.toServer],
      fieldDelimiter ∉ text.toList) :
    ∃ token claims, issueAt request secret expirySeconds now nonce = .ok token ∧
      validateAt token secret now = .ok claims ∧ claims.toHandoffRequest = request := by
  let claims : HandoffClaims :=
    { request with expiresAt := expiry now expirySeconds, nonce := nonce.toHex }
  have hissued : issueAt request secret expirySeconds now nonce = .ok (assemble secret claims) := by
    refine if_neg fun hany => ?_
    obtain ⟨text, htext, hmem⟩ := List.any_eq_true.mp hany
    exact h text htext (List.contains_iff_mem.mp hmem)
  have hbars : ∀ text ∈ [claims.username, claims.fromServer, claims.toServer, claims.nonce],
      fieldDelimiter ∉ text.toList := by
    simp only [List.forall_mem_cons] at h ⊢
    exact ⟨h.1, h.2.1, h.2.2.1, Bytes.not_mem_toHex (by decide) _, List.forall_mem_nil _⟩
  have hlast : ¬claims.expiresAt < now := by
    have hexpiry := toNat_expiry now expirySeconds
    have hnow := now.toNat_lt
    rw [UInt64.lt_iff_toNat_lt]
    show ¬(expiry now expirySeconds).toNat < now.toNat
    rw [hexpiry]
    show ¬min (2 ^ 64 - 1) _ < _
    omega
  exact ⟨assemble secret claims, claims, hissued,
    (validateAt_assemble hbars secret now).trans (if_neg hlast), rfl⟩

/-- Whether a node can hand everybody off to a peer whose own name can stand in a token, whatever
    the secret, the lifetime and the time: a token is issued, and at the time of issue it is good
    and names the node and the peer. -/
def HandsOff (c : MeshConfig) (peer : String) : Prop :=
  ∀ (subject : UInt64) (username : String) (key : UInt64) (secret : Bytes)
    (expirySeconds now : UInt64) (nonce : Bytes), fieldDelimiter ∉ username.toList →
    ∃ token claims,
      issueAt ⟨subject, username, c.server.serverId, peer, key⟩ secret expirySeconds now nonce =
        .ok token ∧
      validateAt token secret now = .ok claims ∧
      claims.fromServer = c.server.serverId ∧ claims.toServer = peer

/-- A node with a valid configuration can hand players off to a peer that it lists exactly if the
    peer's name does not hold the delimiter. If it does, every request is refused. -/
theorem handed_off_iff (isDirectory : String → Bool) (c : MeshConfig)
    (h : c.complaints isDirectory = []) :
    ∀ peer ∈ c.bridge.peers.names,
      (HandsOff c peer ↔ fieldDelimiter ∉ peer.toList) ∧
      (fieldDelimiter ∈ peer.toList →
        ∀ (subject : UInt64) (username : String) (key : UInt64) (secret : Bytes)
          (expirySeconds now : UInt64) (nonce : Bytes),
          issueAt ⟨subject, username, c.server.serverId, peer, key⟩ secret expirySeconds now nonce =
            .error (.tokenRejected .reservedDelimiter)) := by
  intro peer _
  have hfrom : fieldDelimiter ∉ c.server.serverId.toList := by
    simp only [MeshConfig.complaints, List.append_eq_nil_iff] at h
    exact ServerConfig.delimiter_not_mem_serverId h.1.1.1.1.1
  have hrefused (hpeer : fieldDelimiter ∈ peer.toList) (subject : UInt64) (username : String)
      (key : UInt64) (secret : Bytes) (expirySeconds now : UInt64) (nonce : Bytes) :
      issueAt ⟨subject, username, c.server.serverId, peer, key⟩ secret expirySeconds now nonce =
        .error (.tokenRejected .reservedDelimiter) :=
    issueAt_of_mem peer (by simp) hpeer
  refine ⟨⟨fun hhands hpeer => ?_, fun hpeer => ?_⟩, hrefused⟩
  · obtain ⟨token, claims, hissued, -⟩ := hhands 0 "" 0 [] 0 0 [] (by decide)
    rw [hrefused hpeer] at hissued
    cases hissued
  · intro subject username key secret expirySeconds now nonce husername
    obtain ⟨token, claims, hissued, hgood, hrequest⟩ :=
      issued_is_good ⟨subject, username, c.server.serverId, peer, key⟩ secret expirySeconds now
        nonce (by
          simp only [List.forall_mem_cons]
          exact ⟨husername, hfrom, hpeer, List.forall_mem_nil _⟩)
    exact ⟨token, claims, hissued, hgood, congrArg HandoffRequest.fromServer hrequest,
      congrArg HandoffRequest.toServer hrequest⟩

/-- Two peers, of which the name of one holds the delimiter. -/
def barredPeers : PeerTable where
  entries := [("game-1", { host := "a", port := 7101 }), ("game|2", { host := "b", port := 7102 })]
  ascending := by decide

/-- A node with these peers. -/
def withBarredPeer : MeshConfig := { bridge := { peers := barredPeers } }

/-- Players can be sent to the one peer only. -/
theorem handed_off_to_one_of_two :
    withBarredPeer.complaints (fun _ => false) = [] ∧
      ("game-1" ∈ withBarredPeer.bridge.peers.names ∧ HandsOff withBarredPeer "game-1") ∧
      ("game|2" ∈ withBarredPeer.bridge.peers.names ∧ fieldDelimiter ∈ "game|2".toList ∧
        issueAt ⟨42, "é.x", "node-1", "game|2", 7⟩ [1, 2, 3] 60 1000 [255] =
          .error (.tokenRejected .reservedDelimiter)) := by
  have hvalid : withBarredPeer.complaints (fun _ => false) = [] := by decide +kernel
  have hfirst : "game-1" ∈ withBarredPeer.bridge.peers.names := by decide +kernel
  have hsecond : "game|2" ∈ withBarredPeer.bridge.peers.names := by decide +kernel
  have hbar : fieldDelimiter ∈ "game|2".toList := by decide
  have hhanded := handed_off_iff (fun _ => false) withBarredPeer hvalid
  exact ⟨hvalid, ⟨hfirst, (hhanded _ hfirst).1.mpr (by decide)⟩, hsecond, hbar,
    (hhanded _ hsecond).2 hbar 42 "é.x" 7 [1, 2, 3] 60 1000 [255]⟩

/-- That a configuration is valid and lists a peer does not mean that players can be sent there. -/
theorem not_handed_off_to_listed_peer :
    withBarredPeer.complaints (fun _ => false) = [] ∧
      "game|2" ∈ withBarredPeer.bridge.peers.names ∧ fieldDelimiter ∉ "alice".toList ∧
      ∀ token, issueAt ⟨42, "alice", withBarredPeer.server.serverId, "game|2", 7⟩ [1, 2, 3] 60 1000
        [255] ≠ .ok token :=
  ⟨by decide +kernel, by decide +kernel, by decide, fun _ => nofun⟩

end Handoff
end ShardMesh
