import ShardMesh.Crypto.Cipher

/-!
# Opening sealed boxes

A box that was closed under a key and a nonce opens under the same key and nonce, and what it gives
is what was put in. All that has to be known of the cipher is that its key stream covers the data:
a key of 32 bytes and a nonce of 24 make states of sixteen words, which no round changes in size.
-/

namespace ShardMesh

namespace ChaCha20

/-! ## Sizes -/

theorem size_quarterRound (s : State) (a b c d : Nat) : (quarterRound s a b c d).size = s.size := by
  simp [quarterRound]

theorem size_doubleRound (s : State) : (doubleRound s).size = s.size := by
  simp only [doubleRound, size_quarterRound]

theorem size_rounds (s : State) : (rounds s).size = s.size := by
  have hfold (n : Nat) : (Nat.fold n (fun _ _ s => doubleRound s) s).size = s.size := by
    induction n with
    | zero => rfl
    | succ n ih => rw [Nat.fold_succ, size_doubleRound, ih]
  exact hfold 10

theorem length_wordsOf (bytes : Bytes) : (wordsOf bytes).length = bytes.length / 4 := by
  fun_induction wordsOf bytes with
  | case1 a b c d rest ih => simp only [List.length_cons, ih]; omega
  | case2 bytes hshort =>
    match bytes, hshort with
    | [], _ | [_], _ | [_, _], _ | [_, _, _], _ => simp
    | a :: b :: c :: d :: rest, hshort => exact absurd rfl (hshort a b c d rest)

theorem length_bytesOf (words : List UInt32) : (bytesOf words).length = 4 * words.length := by
  induction words with
  | nil => rfl
  | cons w words ih =>
    rw [bytesOf, List.flatMap_cons, List.length_append, Bytes.length_ofNatLE, List.length_cons]
    rw [bytesOf] at ih
    omega

theorem size_stateOf {key tail : Bytes} (hkey : key.length = 32) (htail : tail.length = 16) :
    (stateOf key tail).size = 16 := by
  simp only [stateOf, List.size_toArray, List.length_append, length_wordsOf, hkey, htail]
  rfl

theorem length_block {key nonce : Bytes} (hkey : key.length = 32) (hnonce : nonce.length = 12)
    (counter : Nat) : (block key nonce counter).length = 64 := by
  have hstate : (stateOf key (Bytes.ofNatLE 4 counter ++ nonce)).size = 16 :=
    size_stateOf hkey (by rw [List.length_append, Bytes.length_ofNatLE, hnonce])
  simp only [block, length_bytesOf, List.length_zipWith, Array.length_toList, size_rounds, hstate]
  rfl

theorem length_keyStream {key nonce : Bytes} (hkey : key.length = 32) (hnonce : nonce.length = 12)
    (counter blocks : Nat) : (keyStream key nonce counter blocks).length = 64 * blocks := by
  induction blocks generalizing counter with
  | zero => rfl
  | succ blocks ih =>
    rw [keyStream, List.length_append, length_block hkey hnonce, ih]
    omega

theorem length_deriveKey {key nonce : Bytes} (hkey : key.length = 32)
    (hnonce : nonce.length = 16) : (deriveKey key nonce).length = 32 := by
  have hwords : (rounds (stateOf key nonce)).toList.length = 16 := by
    rw [Array.length_toList, size_rounds, size_stateOf hkey hnonce]
  simp only [deriveKey, length_bytesOf, List.length_append, List.length_take, List.length_drop,
    hwords]
  rfl

/-! ## Twice the same stream -/

theorem length_apply {key nonce : Bytes} (hkey : key.length = 32) (hnonce : nonce.length = 12)
    (counter : Nat) (data : Bytes) : (apply key nonce counter data).length = data.length := by
  rw [apply, mask, List.length_zipWith, length_keyStream hkey hnonce]
  omega

/-- Decrypting is encrypting again. -/
theorem apply_apply {key nonce : Bytes} (hkey : key.length = 32) (hnonce : nonce.length = 12)
    (counter : Nat) (data : Bytes) :
    apply key nonce counter (apply key nonce counter data) = data := by
  have hlength := length_apply hkey hnonce counter data
  rw [apply, hlength, apply, mask_mask]
  rw [length_keyStream hkey hnonce]
  omega

end ChaCha20

namespace SealedBox

theorem length_tagOf (key nonce ciphertext : Bytes) :
    (tagOf key nonce ciphertext).length = tagLength :=
  Bytes.length_ofNatLE ..

/-- The key and the nonce of a session have the lengths that the cipher asks for. -/
theorem length_session {key nonce : Bytes} (hkey : key.length = 32)
    (hnonce : nonce.length = nonceLength) :
    (session key nonce).1.length = 32 ∧ (session key nonce).2.length = 12 := by
  have htake : (nonce.take 16).length = 16 := by rw [List.length_take, hnonce, nonceLength]; rfl
  simp only [session, List.length_append, List.length_replicate, List.length_drop, hnonce,
    nonceLength]
  exact ⟨ChaCha20.length_deriveKey hkey htake, trivial⟩

/-- A box is longer than its data by the tag. -/
theorem length_close {key nonce : Bytes} (hkey : key.length = 32) (hnonce : nonce.length = nonceLength)
    (data : Bytes) : (close key nonce data).length = data.length + tagLength := by
  obtain ⟨hderived, hshort⟩ := length_session hkey hnonce
  simp only [close, List.length_append, ChaCha20.length_apply hderived hshort, length_tagOf]

/-- A box opens with the key and the nonce that it was closed with. -/
theorem open?_close {key nonce : Bytes} (hkey : key.length = 32) (hnonce : nonce.length = nonceLength)
    (data : Bytes) : open? key nonce (close key nonce data) = some data := by
  obtain ⟨hderived, hshort⟩ := length_session hkey hnonce
  rcases hsession : session key nonce with ⟨derived, short⟩
  rw [hsession] at hderived hshort
  have hbox : close key nonce data = ChaCha20.apply derived short 1 data ++
      tagOf derived short (ChaCha20.apply derived short 1 data) := by
    simp only [close, hsession]
  have happly := ChaCha20.apply_apply hderived hshort 1 data
  generalize ChaCha20.apply derived short 1 data = ciphertext at hbox happly
  have htag : (tagOf derived short ciphertext).length = tagLength := length_tagOf ..
  have hcipher : (ciphertext ++ tagOf derived short ciphertext).length - tagLength =
      ciphertext.length := by
    rw [List.length_append, htag, Nat.add_sub_cancel]
  have hlong : ¬ (ciphertext ++ tagOf derived short ciphertext).length < tagLength := by
    rw [List.length_append, htag]; omega
  rw [hbox, open?, if_neg hlong, hsession]
  dsimp only
  rw [hcipher, List.take_left, List.drop_left, if_pos rfl, happly]

end SealedBox

namespace Cipher

/-- Keys have 32 bytes. -/
def HasKey : Cipher → Prop
  | .plain => True
  | .sealed key => key.length = 32

/-- What was encrypted with any nonce is decrypted again under the same key. -/
theorem decrypt_encryptWith {c : Cipher} (hkey : c.HasKey) {nonce : Bytes}
    (hnonce : nonce.length = SealedBox.nonceLength) (data : Bytes) :
    c.decrypt (c.encryptWith nonce data) = .ok data := by
  cases c with
  | plain => rfl
  | sealed key =>
    have hlong : ¬ (nonce ++ SealedBox.close key nonce data).length < SealedBox.nonceLength := by
      rw [List.length_append, hnonce]; omega
    rw [encryptWith, decrypt, if_neg hlong, List.take_left' hnonce, List.drop_left' hnonce,
      SealedBox.open?_close hkey hnonce]

/-- What was encrypted with the next nonce of a supply is decrypted again under the same key. -/
theorem decrypt_encrypt {c : Cipher} (hkey : c.HasKey) (source : NonceSource) (data : Bytes) :
    c.decrypt (c.encrypt source data).1 = .ok data := by
  cases c with
  | plain => rfl
  | sealed key => exact decrypt_encryptWith hkey (Bytes.length_ofNatBE ..) data

/-- Encryption adds no more than a nonce and a tag. -/
theorem length_encrypt_le {c : Cipher} (hkey : c.HasKey) (source : NonceSource) (data : Bytes) :
    (c.encrypt source data).1.length ≤
      SealedBox.nonceLength + data.length + SealedBox.tagLength := by
  cases c with
  | plain =>
    show data.length ≤ _
    omega
  | sealed key =>
    have hnonce : source.draw.1.length = SealedBox.nonceLength := Bytes.length_ofNatBE ..
    show (source.draw.1 ++ SealedBox.close key source.draw.1 data).length ≤ _
    rw [List.length_append, SealedBox.length_close hkey hnonce, hnonce]
    omega

end Cipher
end ShardMesh
