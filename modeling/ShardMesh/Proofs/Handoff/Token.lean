import ShardMesh.Handoff.Token
import ShardMesh.Proofs.Text.Base64
import ShardMesh.Proofs.Text.Encodings
import ShardMesh.Proofs.Text.Fields

/-!
# Which tokens are accepted

A token is accepted exactly when it is a payload part and the one signature text of this part, and
the payload part is the one spelling of a text that says the claims (`accepted_iff_signed`). What is
issued is accepted up to its last moment, with the claims that went in (`issued_until_expiry`).
-/

namespace ShardMesh.Handoff

open Text (Denotes)

/-! ## What a payload says -/

/-- The fields of claims, with their three numbers written in some way. -/
def row (subject key expiresAt : List Char) (c : HandoffClaims) : List (List Char) :=
  [subject, c.username.toList, c.fromServer.toList, c.toServer.toList, key, expiresAt,
    c.nonce.toList]

/-- A text says claims: it is their seven fields between vertical bars, none of which holds such a
    bar, and the first, fifth and sixth stand for their numbers. -/
def Says (text : List Char) (c : HandoffClaims) : Prop :=
  ∃ subject key expiresAt,
    (∀ field ∈ row subject key expiresAt c, fieldDelimiter ∉ field) ∧
    text = [fieldDelimiter].intercalate (row subject key expiresAt c) ∧
    Denotes subject c.subject.toNat ∧ Denotes key c.ownershipKey.toNat ∧
    Denotes expiresAt c.expiresAt.toNat

theorem readU64_eq_some_iff {text : List Char} {n : UInt64} :
    readU64 text = some n ↔ Denotes text n.toNat := by
  rw [readU64, Option.map_eq_some_iff]
  constructor
  · rintro ⟨m, hread, rfl⟩
    obtain ⟨hm, hdenotes⟩ := Text.number?_eq_some_iff.mp hread
    rwa [UInt64.toNat_ofNat_of_lt' hm]
  · intro hdenotes
    exact ⟨n.toNat, Text.number?_eq_some_iff.mpr ⟨n.toNat_lt, hdenotes⟩, UInt64.ofNat_toNat⟩

/-- Reading a payload takes the texts that say claims, and gives these. -/
theorem claims?_eq_some_iff {text : List Char} {c : HandoffClaims} :
    claims? text = some c ↔ Says text c := by
  constructor
  · intro h
    rw [claims?] at h
    split at h
    · rename_i subject username fromServer toServer key expiresAt nonce hfields
      simp only [Option.bind_eq_bind, Option.bind_eq_some_iff, readU64_eq_some_iff] at h
      obtain ⟨a, ha, b, hb, e, he, h⟩ := h
      cases h
      obtain ⟨-, hpieces, rfl⟩ := Text.fields_eq_iff.mp hfields
      refine ⟨subject, key, expiresAt, ?_, ?_, ha, hb, he⟩
      · simpa only [row, String.toList_ofList] using hpieces
      · simp only [row, String.toList_ofList]
    · cases h
  · rintro ⟨subject, key, expiresAt, hbars, rfl, hsubject, hkey, hexpires⟩
    have hfields := Text.fields_eq_iff.mpr ⟨List.cons_ne_nil _ _, hbars, rfl⟩
    simp only [claims?, row, hfields, readU64_eq_some_iff.mpr hsubject, readU64_eq_some_iff.mpr hkey,
      readU64_eq_some_iff.mpr hexpires, String.ofList_toList]
    rfl

/-- The payload of claims says them, provided that no text in them holds the delimiter. -/
theorem says_payload {c : HandoffClaims}
    (h : ∀ text ∈ [c.username, c.fromServer, c.toServer, c.nonce], fieldDelimiter ∉ text.toList) :
    Says (payload c) c := by
  have hdecimal (n : Nat) : fieldDelimiter ∉ Text.decimal n := Text.not_mem_decimal (by decide) n
  have hdenotes (n : UInt64) : Denotes (Text.decimal n.toNat) n.toNat :=
    (Text.number?_eq_some_iff.mp (Text.number?_decimal n.toNat_lt)).2
  refine ⟨_, _, _, ?_, rfl, hdenotes _, hdenotes _, hdenotes _⟩
  simp only [List.forall_mem_cons] at h
  simp only [row, List.forall_mem_cons]
  obtain ⟨husername, hfrom, hto, hnonce, -⟩ := h
  exact ⟨hdecimal _, husername, hfrom, hto, hdecimal _, hdecimal _, hnonce, List.forall_mem_nil _⟩

/-- The claims that a payload part is decoded to. -/
theorem decoded_eq_some_iff {encoded : List Char} {c : HandoffClaims} :
    ((Text.Base64.decode? encoded).bind Bytes.toText?).bind (claims? ·.toList) = some c ↔
      ∃ text, encoded = Text.Base64.encode (Bytes.ofText text) ∧ Says text.toList c := by
  simp only [Option.bind_eq_some_iff, Text.Base64.decode?_eq_some_iff, Bytes.toText?_eq_some_iff,
    claims?_eq_some_iff]
  constructor
  · rintro ⟨text, ⟨bytes, rfl, rfl⟩, hsays⟩
    exact ⟨text, rfl, hsays⟩
  · rintro ⟨text, rfl, hsays⟩
    exact ⟨text, ⟨_, rfl, rfl⟩, hsays⟩

/-! ## Parts of a token -/

/-- A token is cut at its last dot into a payload part, which is not empty, and another part. -/
structure Parts (token : String) (encoded given : List Char) : Prop where
  token_eq : token.toList = encoded ++ signatureDelimiter :: given
  last : signatureDelimiter ∉ given
  payload : encoded ≠ []

/-- The text of the signature of a payload part. -/
def signatureText (secret : Bytes) (encoded : List Char) : List Char :=
  Text.Base64.encode (signature secret encoded)

/-- A token that has its two parts is judged by the signature, then by the payload, and then by the
    time. -/
theorem Parts.validateAt {token : String} {encoded given : List Char} (h : Parts token encoded given)
    (secret : Bytes) (now : UInt64) :
    validateAt token secret now =
      if given ≠ signatureText secret encoded then .error (.tokenRejected .signature)
      else match ((Text.Base64.decode? encoded).bind Bytes.toText?).bind (claims? ·.toList) with
        | none => .error (.tokenRejected .format)
        | some c => if c.expiresAt < now then .error (.tokenRejected .expired) else .ok c := by
  have hnonempty : token.isEmpty = false := by
    rw [← Bool.not_eq_true, String.isEmpty_iff, ← String.toList_eq_nil_iff, h.token_eq]
    exact List.append_ne_nil_of_right_ne_nil _ (List.cons_ne_nil _ _)
  have hcut := Text.cutLast_eq_some_iff.mpr ⟨h.token_eq, h.last⟩
  have hgiven : Text.Base64.decode? given ≠ some (signature secret encoded) ↔
      given ≠ signatureText secret encoded := not_congr Text.Base64.decode?_eq_some_iff
  unfold Handoff.validateAt
  rw [hnonempty, if_neg Bool.false_ne_true, hcut]
  split
  · contradiction
  · rename_i heq
    exact absurd (congrArg Prod.fst (Option.some.inj heq)) h.payload
  · rename_i heq
    cases heq
    exact ite_congr (propext hgiven) (fun _ => rfl) fun _ => rfl

/-- Only a token that has its two parts is accepted. -/
theorem exists_parts {token : String} {secret : Bytes} {now : UInt64} {c : HandoffClaims}
    (h : validateAt token secret now = .ok c) : ∃ encoded given, Parts token encoded given := by
  unfold Handoff.validateAt at h
  split at h
  · cases h
  · split at h
    · cases h
    · cases h
    · rename_i encoded given hpayload hcut
      obtain ⟨htoken, hlast⟩ := Text.cutLast_eq_some_iff.mp hcut
      exact ⟨encoded, given, htoken, hlast, hpayload⟩

theorem payload_ne_nil (c : HandoffClaims) : payload c ≠ [] := by
  have hdecimal : Text.decimal c.subject.toNat ≠ [] := Nat.toDigits_ne_nil
  rw [payload, List.intercalate_cons_of_ne_nil (List.cons_ne_nil _ _)]
  exact List.append_ne_nil_of_left_ne_nil (List.append_ne_nil_of_left_ne_nil hdecimal _) _

/-- Issued tokens have their two parts. -/
theorem parts_assemble (secret : Bytes) (c : HandoffClaims) :
    let encoded := Text.Base64.encode (Bytes.ofText (String.ofList (payload c)))
    Parts (assemble secret c) encoded (signatureText secret encoded) := by
  refine ⟨String.toList_ofList, Text.Base64.not_mem_encode (by decide) _, ?_⟩
  apply Text.Base64.encode_ne_nil
  apply Bytes.ofText_ne_nil
  rw [String.toList_ofList]
  exact payload_ne_nil c

/-! ## Which tokens are accepted -/

/-- A token of the two parts is accepted if the second is the signature text of the first, the first
    is the spelling of a text that says the claims, and they are good at the time. -/
theorem Parts.accepted_iff {token : String} {encoded given : List Char}
    (h : Parts token encoded given) {secret : Bytes} {now : UInt64} {c : HandoffClaims} :
    Handoff.validateAt token secret now = .ok c ↔
      given = signatureText secret encoded ∧
      (∃ text, encoded = Text.Base64.encode (Bytes.ofText text) ∧ Says text.toList c) ∧
      now ≤ c.expiresAt := by
  rw [h.validateAt, ← decoded_eq_some_iff]
  by_cases hgiven : given = signatureText secret encoded
  · rw [if_neg (not_not_intro hgiven), and_iff_right hgiven]
    cases ((Text.Base64.decode? encoded).bind Bytes.toText?).bind (claims? ·.toList) with
    | none => simp
    | some read =>
      rw [Option.some_inj, ← UInt64.not_lt]
      dsimp only
      split
      · rename_i hlate
        refine iff_of_false (fun hok => by cases hok) ?_
        rintro ⟨rfl, hgood⟩
        exact hgood hlate
      · rename_i hgood
        constructor
        · intro hok
          cases hok
          exact ⟨rfl, hgood⟩
        · rintro ⟨rfl, -⟩
          rfl
  · rw [if_pos hgiven]
    exact iff_of_false (fun hok => by cases hok) fun hok => hgiven hok.1

/-- A token is accepted, with claims that are good at the time, exactly if it is a payload part and
    the Base64 text of this part's keyed hash, and the payload part is the spelling of a text that
    says the claims. So there is at most one accepted token for a payload part; and a token with any
    other signature is rejected for the signature, whatever the payload part stands for. -/
theorem accepted_iff_signed (secret : Bytes) :
    let signed (encoded : List Char) : List Char :=
      Text.Base64.encode (Sha256.hmac secret (Bytes.ofText (String.ofList encoded)))
    (∀ token now c, validateAt token secret now = .ok c ↔
      ∃ encoded text, Parts token encoded (signed encoded) ∧
        encoded = Text.Base64.encode (Bytes.ofText text) ∧ Says text.toList c ∧
        now ≤ c.expiresAt) ∧
    (∀ token token' encoded given given' now now' c c',
      Parts token encoded given → Parts token' encoded given' →
      validateAt token secret now = .ok c → validateAt token' secret now' = .ok c' →
      token = token') ∧
    (∀ token encoded given now, Parts token encoded given → given ≠ signed encoded →
      validateAt token secret now = .error (.tokenRejected .signature)) := by
  intro signed
  refine ⟨fun token now c => ⟨fun h => ?_, ?_⟩, ?_, fun token encoded given now h hgiven => ?_⟩
  · obtain ⟨encoded, given, hparts⟩ := exists_parts h
    obtain ⟨rfl, ⟨text, htext, hsays⟩, hgood⟩ := hparts.accepted_iff.mp h
    exact ⟨encoded, text, hparts, htext, hsays, hgood⟩
  · rintro ⟨encoded, text, hparts, htext, hsays, hgood⟩
    exact hparts.accepted_iff.mpr ⟨rfl, ⟨text, htext, hsays⟩, hgood⟩
  · intro token token' encoded given given' now now' c c' hparts hparts' h h'
    obtain ⟨rfl, -⟩ := hparts.accepted_iff.mp h
    obtain ⟨rfl, -⟩ := hparts'.accepted_iff.mp h'
    exact String.toList_inj.mp (hparts.token_eq.trans hparts'.token_eq.symm)
  · have hforged : given ≠ signatureText secret encoded := hgiven
    rw [h.validateAt, if_pos hforged]

/-- The same payload part is accepted with its signature text, and rejected with another text. -/
theorem accepted_with_signature_only :
    let secret : Bytes := [1, 2, 3]
    let claims : HandoffClaims := ⟨⟨42, "é.x", "", "lobby", 7⟩, 5, "n"⟩
    let encoded := Text.Base64.encode (Bytes.ofText (String.ofList (payload claims)))
    let signed := Text.Base64.encode (Sha256.hmac secret (Bytes.ofText (String.ofList encoded)))
    let other := String.ofList (encoded ++ ['.', '|'])
    validateAt (assemble secret claims) secret 5 = .ok claims ∧
      Parts other encoded ['|'] ∧ ['|'] ≠ signed ∧
      validateAt other secret 5 = .error (.tokenRejected .signature) := by
  intro secret claims encoded signed other
  have hparts := parts_assemble secret claims
  have hsays : Says (String.ofList (payload claims)).toList claims := by
    rw [String.toList_ofList]
    exact says_payload (by decide)
  have hother : Parts other encoded ['|'] := ⟨String.toList_ofList, by decide, hparts.payload⟩
  have hsignature : ['|'] ≠ signed := by
    intro hsame
    have hbar : '|' ∉ signed := Text.Base64.not_mem_encode (by decide) _
    rw [← hsame] at hbar
    exact hbar (List.mem_singleton.mpr rfl)
  obtain ⟨haccepted, -, hrejected⟩ := accepted_iff_signed secret
  exact ⟨(haccepted _ 5 claims).mpr ⟨encoded, _, hparts, rfl, hsays, by decide⟩, hother, hsignature,
    hrejected other encoded ['|'] 5 hother hsignature⟩

/-! ## What is issued -/

/-- The token of claims is good until they expire, provided that no text in them holds the
    delimiter. -/
theorem validateAt_assemble {c : HandoffClaims}
    (h : ∀ text ∈ [c.username, c.fromServer, c.toServer, c.nonce], fieldDelimiter ∉ text.toList)
    (secret : Bytes) (t : UInt64) :
    validateAt (assemble secret c) secret t =
      if c.expiresAt < t then .error (.tokenRejected .expired) else .ok c := by
  have hsays : Says (String.ofList (payload c)).toList c := by
    rw [String.toList_ofList]
    exact says_payload h
  have hread := decoded_eq_some_iff.mpr ⟨String.ofList (payload c), rfl, hsays⟩
  rw [(parts_assemble secret c).validateAt, if_neg (not_not_intro rfl), hread]

/-- The last millisecond of a token, as a number. -/
theorem toNat_expiry (now expirySeconds : UInt64) :
    (expiry now expirySeconds).toNat =
      min (UInt64.size - 1) (now.toNat + min (UInt64.size - 1) (1000 * expirySeconds.toNat)) := by
  rw [expiry, UInt64.toNat_ofNat_of_lt']
  · rfl
  · exact Nat.lt_of_le_of_lt (Nat.min_le_left ..) (by decide)

/-- A request is refused exactly if one of its three texts holds the delimiter. A token that is
    issued gives back the request, its last millisecond and the 32 digits of its nonce, at every
    time up to the last millisecond; and at every later time it has expired. -/
theorem issued_until_expiry (request : HandoffRequest) (secret : Bytes)
    (expirySeconds now : UInt64) (nonce : BitVec 128) :
    let issued := issueAt request secret expirySeconds now (Bytes.ofNatBE 16 nonce.toNat)
    let reserved := ∃ text ∈ [request.username, request.fromServer, request.toServer],
      fieldDelimiter ∈ text.toList
    let last := min (UInt64.size - 1) (now.toNat + min (UInt64.size - 1) (1000 * expirySeconds.toNat))
    (issued = .error (.tokenRejected .reservedDelimiter) ↔ reserved) ∧
    (¬ reserved → ∃ token claims, issued = .ok token ∧
      claims.toHandoffRequest = request ∧ claims.expiresAt.toNat = last ∧
      claims.nonce.toList = List.leftpad 32 '0' (Nat.toDigits 16 nonce.toNat) ∧
      ∀ t : UInt64, validateAt token secret t =
        if t.toNat ≤ last then .ok claims else .error (.tokenRejected .expired)) := by
  intro issued reserved last
  have hreserved : ([request.username, request.fromServer, request.toServer].any
      (·.toList.contains fieldDelimiter) = true) ↔ reserved := by
    simp only [reserved, List.any_eq_true, List.contains_iff_mem]
  by_cases h : reserved
  · have hissued : issued = .error (.tokenRejected .reservedDelimiter) :=
      if_pos (hreserved.mpr h)
    exact ⟨iff_of_true hissued h, fun hnot => absurd h hnot⟩
  · let claims : HandoffClaims := { request with
      expiresAt := expiry now expirySeconds, nonce := (Bytes.ofNatBE 16 nonce.toNat).toHex }
    have hissued : issued = .ok (assemble secret claims) := if_neg (mt hreserved.mp h)
    have hlast : claims.expiresAt.toNat = last := toNat_expiry now expirySeconds
    have hbars : ∀ text ∈ [claims.username, claims.fromServer, claims.toServer, claims.nonce],
        fieldDelimiter ∉ text.toList := by
      intro text hmem hbar
      have hnonce : fieldDelimiter ∉ claims.nonce.toList := Bytes.not_mem_toHex (by decide) _
      have hfields : [claims.username, claims.fromServer, claims.toServer, claims.nonce] =
        [request.username, request.fromServer, request.toServer] ++ [claims.nonce] := rfl
      rw [hfields, List.mem_append, List.mem_singleton] at hmem
      rcases hmem with hmem | rfl
      · exact h ⟨text, hmem, hbar⟩
      · exact hnonce hbar
    refine ⟨iff_of_false (by rw [hissued]; exact nofun) h, fun _ =>
      ⟨assemble secret claims, claims, hissued, rfl, hlast, ?_, fun t => ?_⟩⟩
    · exact Bytes.toList_toHex_ofNatBE (by decide) nonce.isLt
    · rw [validateAt_assemble hbars, ← hlast, ← ite_not]
      simp only [UInt64.not_lt, UInt64.le_iff_toNat_le]

/-- A token lives up to the end of its last millisecond. -/
theorem issued_for_a_minute :
    let request : HandoffRequest := ⟨42, "é.x", "", "lobby", 7⟩
    (¬ ∃ text ∈ [request.username, request.fromServer, request.toServer],
      fieldDelimiter ∈ text.toList) ∧
    ∃ token claims, issueAt request [1, 2, 3] 60 1000 (Bytes.ofNatBE 16 255) = .ok token ∧
      claims.toHandoffRequest = request ∧
      validateAt token [1, 2, 3] 61000 = .ok claims ∧
      validateAt token [1, 2, 3] 61001 = .error (.tokenRejected .expired) := by
  intro request
  have hfree : ¬ ∃ text ∈ [request.username, request.fromServer, request.toServer],
      fieldDelimiter ∈ text.toList := by decide
  obtain ⟨token, claims, hissued, hrequest, -, -, hvalid⟩ :=
    (issued_until_expiry request [1, 2, 3] 60 1000 255#128).2 hfree
  refine ⟨hfree, token, claims, hissued, hrequest, ?_, ?_⟩
  · exact (hvalid 61000).trans (if_pos (by decide))
  · exact (hvalid 61001).trans (if_neg (by decide))

end ShardMesh.Handoff
