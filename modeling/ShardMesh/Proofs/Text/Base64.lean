import ShardMesh.Text.Base64

/-!
# Base64 text stands for one byte string

Reading undoes writing (`decode?_encode`), and only what writing produces is read at all
(`eq_encode_of_decode?`). So a text has one byte string, a byte string has one text, and whoever
changes a character of a text does not get the same bytes again.
-/

namespace ShardMesh.Text.Base64

/-! ## Single characters -/

theorem value?_symbol {n : Nat} (h : n < 64) : value? (symbol n) = some n := by
  have hall : ∀ i : Fin 64, value? (symbol i) = some i.val := by decide
  exact hall ⟨n, h⟩

theorem char_le_iff {a b : Char} : a ≤ b ↔ a.toNat ≤ b.toNat := Iff.rfl

/-- A character with a number is the symbol of this number. -/
theorem eq_symbol_of_value? {c : Char} {n : Nat} (h : value? c = some n) : n < 64 ∧ c = symbol n := by
  have hback : Char.ofNat c.toNat = c := Char.ofNat_toNat c
  simp only [value?, char_le_iff, Char.reduceToNat] at h
  split at h
  · cases h
    refine ⟨by omega, ?_⟩
    rw [symbol, if_pos (by omega), show 65 + (c.toNat - 65) = c.toNat by omega, hback]
  · split at h
    · cases h
      refine ⟨by omega, ?_⟩
      rw [symbol, if_neg (by omega), if_pos (by omega), show 71 + (c.toNat - 71) = c.toNat by omega,
        hback]
    · split at h
      · cases h
        refine ⟨by omega, ?_⟩
        rw [symbol, if_neg (by omega), if_neg (by omega), if_pos (by omega), Nat.add_sub_cancel,
          hback]
      · split at h
        · cases h
          exact ⟨by decide, ‹c = '-'›⟩
        · split at h <;> cases h
          exact ⟨by decide, ‹c = '_'›⟩

/-- A character that is no symbol is in no text. -/
theorem symbol_ne {c : Char} (hc : value? c = none) {n : Nat} (hn : n < 64) : symbol n ≠ c := by
  rintro rfl
  rw [value?_symbol hn] at hc
  cases hc

/-! ## Reading symbols -/

theorem decode?_two {p q : Nat} (hp : p < 64) (hq : q < 64) :
    decode? [symbol p, symbol q] =
      if q % 16 = 0 then some [UInt8.ofNat (p * 4 + q / 16)] else none := by
  simp only [decode?, value?_symbol hp, value?_symbol hq]
  rfl

theorem decode?_three {p q r : Nat} (hp : p < 64) (hq : q < 64) (hr : r < 64) :
    decode? [symbol p, symbol q, symbol r] =
      if r % 4 = 0 then some [UInt8.ofNat (p * 4 + q / 16), UInt8.ofNat (q % 16 * 16 + r / 4)]
      else none := by
  simp only [decode?, value?_symbol hp, value?_symbol hq, value?_symbol hr]
  rfl

theorem decode?_four {p q r s : Nat} (hp : p < 64) (hq : q < 64) (hr : r < 64) (hs : s < 64)
    (rest : List Char) :
    decode? (symbol p :: symbol q :: symbol r :: symbol s :: rest) =
      (decode? rest).map fun bytes => UInt8.ofNat (p * 4 + q / 16) ::
        UInt8.ofNat (q % 16 * 16 + r / 4) :: UInt8.ofNat (r % 4 * 64 + s) :: bytes := by
  simp only [decode?, value?_symbol hp, value?_symbol hq, value?_symbol hr, value?_symbol hs]
  cases decode? rest <;> rfl

/-! ## Reading undoes writing -/

/-- Bytes whose number is known are known. -/
theorem ofNat_of_eq {n : Nat} {b : UInt8} (h : n = b.toNat) : UInt8.ofNat n = b := by
  rw [h, UInt8.ofNat_toNat]

theorem decode?_encode (bytes : Bytes) : decode? (encode bytes) = some bytes := by
  induction bytes using encode.induct with
  | case1 => rfl
  | case2 a =>
    have ha := a.toNat_lt
    rw [encode, decode?_two (by omega) (by omega), if_pos (by omega),
      ofNat_of_eq (b := a) (by omega)]
  | case3 a b =>
    have ha := a.toNat_lt
    have hb := b.toNat_lt
    rw [encode, decode?_three (by omega) (by omega) (by omega), if_pos (by omega),
      ofNat_of_eq (b := a) (by omega), ofNat_of_eq (b := b) (by omega)]
  | case4 a b c rest ih =>
    have ha := a.toNat_lt
    have hb := b.toNat_lt
    have hc := c.toNat_lt
    rw [encode, decode?_four (by omega) (by omega) (by omega) (by omega), ih,
      ofNat_of_eq (b := a) (by omega), ofNat_of_eq (b := b) (by omega),
      ofNat_of_eq (b := c) (by omega)]
    rfl

/-! ## Nothing else is read -/

theorem toNat_ofNat_of_lt {n : Nat} (h : n < 256) : (UInt8.ofNat n).toNat = n := by
  rw [UInt8.toNat_ofNat', Nat.mod_eq_of_lt h]

/-- The first three characters of a group give back the six bits that they stand for. -/
theorem encode_of_two {p q : Nat} (hp : p < 64) (hq : q < 64) (hpad : q % 16 = 0) :
    encode [UInt8.ofNat (p * 4 + q / 16)] = [symbol p, symbol q] := by
  have hfirst : (p * 4 + q / 16) / 4 = p := by omega
  have hsecond : (p * 4 + q / 16) % 4 * 16 = q := by omega
  rw [encode, toNat_ofNat_of_lt (by omega), hfirst, hsecond]

theorem encode_of_three {p q r : Nat} (hp : p < 64) (hq : q < 64) (hr : r < 64)
    (hpad : r % 4 = 0) :
    encode [UInt8.ofNat (p * 4 + q / 16), UInt8.ofNat (q % 16 * 16 + r / 4)] =
      [symbol p, symbol q, symbol r] := by
  have hfirst : (p * 4 + q / 16) / 4 = p := by omega
  have hsecond : (p * 4 + q / 16) % 4 * 16 + (q % 16 * 16 + r / 4) / 16 = q := by omega
  have hthird : (q % 16 * 16 + r / 4) % 16 * 4 = r := by omega
  rw [encode, toNat_ofNat_of_lt (by omega), toNat_ofNat_of_lt (by omega), hfirst, hsecond, hthird]

theorem encode_of_four {p q r s : Nat} (hp : p < 64) (hq : q < 64) (hr : r < 64) (hs : s < 64)
    (bytes : Bytes) :
    encode (UInt8.ofNat (p * 4 + q / 16) :: UInt8.ofNat (q % 16 * 16 + r / 4) ::
        UInt8.ofNat (r % 4 * 64 + s) :: bytes) =
      symbol p :: symbol q :: symbol r :: symbol s :: encode bytes := by
  have hfirst : (p * 4 + q / 16) / 4 = p := by omega
  have hsecond : (p * 4 + q / 16) % 4 * 16 + (q % 16 * 16 + r / 4) / 16 = q := by omega
  have hthird : (q % 16 * 16 + r / 4) % 16 * 4 + (r % 4 * 64 + s) / 64 = r := by omega
  have hfourth : (r % 4 * 64 + s) % 64 = s := by omega
  rw [encode, toNat_ofNat_of_lt (by omega), toNat_ofNat_of_lt (by omega),
    toNat_ofNat_of_lt (by omega), hfirst, hsecond, hthird, hfourth]

/-- A text that is read is the written form of what is read, down to its last bits. -/
theorem eq_encode_of_decode? {text : List Char} {bytes : Bytes} (h : decode? text = some bytes) :
    text = encode bytes := by
  induction text using decode?.induct generalizing bytes with
  | case1 =>
    cases h
    rfl
  | case2 c => cases h
  | case3 p q =>
    simp only [decode?, Option.bind_eq_bind, Option.bind_eq_some_iff] at h
    obtain ⟨p, vp, q, vq, h⟩ := h
    obtain ⟨hp, rfl⟩ := eq_symbol_of_value? vp
    obtain ⟨hq, rfl⟩ := eq_symbol_of_value? vq
    split at h <;> cases h
    exact (encode_of_two hp hq ‹_›).symm
  | case4 p q r =>
    simp only [decode?, Option.bind_eq_bind, Option.bind_eq_some_iff] at h
    obtain ⟨p, vp, q, vq, r, vr, h⟩ := h
    obtain ⟨hp, rfl⟩ := eq_symbol_of_value? vp
    obtain ⟨hq, rfl⟩ := eq_symbol_of_value? vq
    obtain ⟨hr, rfl⟩ := eq_symbol_of_value? vr
    split at h <;> cases h
    exact (encode_of_three hp hq hr ‹_›).symm
  | case5 p q r s rest ih =>
    simp only [decode?, Option.bind_eq_bind, Option.bind_eq_some_iff] at h
    obtain ⟨p, vp, q, vq, r, vr, s, vs, more, hmore, h⟩ := h
    obtain ⟨hp, rfl⟩ := eq_symbol_of_value? vp
    obtain ⟨hq, rfl⟩ := eq_symbol_of_value? vq
    obtain ⟨hr, rfl⟩ := eq_symbol_of_value? vr
    obtain ⟨hs, rfl⟩ := eq_symbol_of_value? vs
    cases h
    rw [encode_of_four hp hq hr hs, ← ih hmore]

/-- What a text stands for, and which text stands for it, are one thing. -/
theorem decode?_eq_some_iff {text : List Char} {bytes : Bytes} :
    decode? text = some bytes ↔ text = encode bytes := by
  constructor
  · exact eq_encode_of_decode?
  · rintro rfl
    exact decode?_encode bytes

/-! ## The alphabet -/

/-- A character without a number is in no written form. -/
theorem not_mem_encode {c : Char} (hc : value? c = none) (bytes : Bytes) : c ∉ encode bytes := by
  have hne {n : Nat} (hn : n < 64) : c ≠ symbol n := (symbol_ne hc hn).symm
  induction bytes using encode.induct with
  | case1 => exact List.not_mem_nil
  | case2 a =>
    have ha := a.toNat_lt
    simp only [encode, List.mem_cons, List.not_mem_nil, or_false, not_or]
    exact ⟨hne (by omega), hne (by omega)⟩
  | case3 a b =>
    have ha := a.toNat_lt
    have hb := b.toNat_lt
    simp only [encode, List.mem_cons, List.not_mem_nil, or_false, not_or]
    exact ⟨hne (by omega), hne (by omega), hne (by omega)⟩
  | case4 a b d rest ih =>
    have ha := a.toNat_lt
    have hb := b.toNat_lt
    have hd := d.toNat_lt
    simp only [encode, List.mem_cons, not_or]
    exact ⟨hne (by omega), hne (by omega), hne (by omega), hne (by omega), ih⟩

theorem encode_ne_nil {bytes : Bytes} (h : bytes ≠ []) : encode bytes ≠ [] := by
  intro hnil
  have hread := decode?_encode bytes
  rw [hnil] at hread
  exact h (Option.some.inj hread).symm

end ShardMesh.Text.Base64
