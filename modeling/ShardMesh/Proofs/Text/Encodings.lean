import ShardMesh.Bytes

/-!
# Texts in bytes, and bytes in texts

The UTF-8 form of a text is the only byte string that reads as the text. The hexadecimal form of a
number that is written in a fixed count of bytes is the number's digits, filled up with zeros.
-/

namespace ShardMesh.Bytes

/-! ## UTF-8 -/

theorem pack_ofText (text : String) : (ofText text).pack = text.toByteArray := rfl

theorem toText?_ofText (text : String) : (ofText text).toText? = some text := by
  rw [toText?, pack_ofText, String.fromUTF8?, dif_pos text.isValidUTF8]
  rfl

theorem toText?_eq_some_iff {bytes : Bytes} {text : String} :
    bytes.toText? = some text ↔ bytes = ofText text := by
  constructor
  · intro h
    rw [toText?, String.fromUTF8?] at h
    split at h <;> cases h
    rfl
  · rintro rfl
    exact toText?_ofText text

theorem ofText_ne_nil {text : String} (h : text.toList ≠ []) : ofText text ≠ [] := by
  intro hnil
  have hread := toText?_ofText text
  have hempty : toText? [] = some "" := toText?_ofText ""
  rw [hnil, hempty] at hread
  rw [← Option.some.inj hread] at h
  exact h rfl

/-! ## Hexadecimal -/

theorem hexDigit_eq_digitChar {n : Nat} (h : n < 16) : hexDigit n = n.digitChar := by
  have hall : ∀ i : Fin 16, hexDigit i = i.val.digitChar := by decide
  exact hall ⟨n, h⟩

theorem hexValue?_hexDigit {n : Nat} (h : n < 16) : hexValue? (hexDigit n) = some n := by
  have hall : ∀ i : Fin 16, hexValue? (hexDigit i) = some i.val := by decide
  exact hall ⟨n, h⟩

/-- A character that is no digit is in no hexadecimal form. -/
theorem not_mem_toHex {c : Char} (hc : hexValue? c = none) (bytes : Bytes) :
    c ∉ bytes.toHex.toList := by
  have hne {n : Nat} (hn : n < 16) : c ≠ hexDigit n := by
    rintro rfl
    rw [hexValue?_hexDigit hn] at hc
    cases hc
  simp only [toHex, String.toList_ofList, List.mem_flatMap, List.mem_cons, List.not_mem_nil, or_false]
  rintro ⟨b, -, hmem⟩
  have hb := b.toNat_lt
  rcases hmem with hhigh | hlow
  · exact hne (by omega) hhigh
  · exact hne (by omega) hlow

/-- Of a number in more than one byte, the least significant byte stands last. -/
theorem ofNatBE_succ (width n : Nat) :
    ofNatBE (width + 1) n = ofNatBE width (n / 256) ++ [UInt8.ofNat n] := by
  induction width with
  | zero => exact congrArg (fun k => [UInt8.ofNat k]) (Nat.div_one n)
  | succ width ih =>
    have htop : n / Nat.pow 256 (width + 1) = n / 256 / Nat.pow 256 width := by
      rw [Nat.div_div_eq_div_mul, Nat.mul_comm]
      rfl
    rw [ofNatBE, ih, ofNatBE, List.cons_append, htop]

/-- The digits of a number, filled up with zeros, are those of its sixteenth and one more. -/
theorem leftpad_toDigits_succ {count : Nat} (h : 0 < count) (n : Nat) :
    List.leftpad (count + 1) '0' (Nat.toDigits 16 n) =
      List.leftpad count '0' (Nat.toDigits 16 (n / 16)) ++ [(n % 16).digitChar] := by
  by_cases hn : n < 16
  · have hzero : Nat.toDigits 16 (n / 16) = ['0'] := by
      rw [Nat.div_eq_of_lt hn]
      rfl
    obtain ⟨count, rfl⟩ := Nat.exists_eq_succ_of_ne_zero (Nat.ne_of_gt h)
    rw [hzero, Nat.toDigits_of_lt_base hn, Nat.mod_eq_of_lt hn]
    simp [List.leftpad, List.replicate_succ']
  · rw [Nat.toDigits_of_base_le (by decide) (Nat.not_lt.mp hn)]
    simp [List.leftpad, List.append_assoc]

/-- Bytes that are appended add two digits each. -/
theorem toList_toHex_append (bytes : Bytes) (n : Nat) :
    (bytes ++ [UInt8.ofNat n]).toHex.toList =
      bytes.toHex.toList ++ [(n / 16 % 16).digitChar, (n % 16).digitChar] := by
  have hhigh : (UInt8.ofNat n).toNat / 16 = n / 16 % 16 := by
    rw [UInt8.toNat_ofNat']
    omega
  have hlow : (UInt8.ofNat n).toNat % 16 = n % 16 := by
    rw [UInt8.toNat_ofNat']
    omega
  simp only [toHex, String.toList_ofList, List.flatMap_append, List.flatMap_singleton, hhigh, hlow]
  rw [hexDigit_eq_digitChar (Nat.mod_lt _ (by decide)), hexDigit_eq_digitChar (Nat.mod_lt _ (by decide))]

/-- The hexadecimal form of a number in a fixed count of bytes has two digits for each byte. -/
theorem toList_toHex_ofNatBE {width n : Nat} (hwidth : 0 < width) (h : n < Nat.pow 256 width) :
    (ofNatBE width n).toHex.toList = List.leftpad (2 * width) '0' (Nat.toDigits 16 n) := by
  obtain ⟨width, rfl⟩ := Nat.exists_eq_succ_of_ne_zero (Nat.ne_of_gt hwidth)
  induction width generalizing n with
  | zero =>
    have hn : n < 256 := h
    rw [ofNatBE_succ, toList_toHex_append, Nat.mul_one, leftpad_toDigits_succ (by decide),
      Nat.toDigits_of_lt_base (by omega), Nat.mod_eq_of_lt (by omega : n / 16 < 16)]
    rfl
  | succ width ih =>
    have hsmall : n / 256 < Nat.pow 256 (width + 1) := by
      apply Nat.div_lt_of_lt_mul
      rw [Nat.mul_comm]
      exact h
    rw [ofNatBE_succ, toList_toHex_append, ih (Nat.succ_pos _) hsmall,
      show 2 * (width + 1 + 1) = 2 * (width + 1) + 1 + 1 by omega,
      leftpad_toDigits_succ (Nat.succ_pos _), leftpad_toDigits_succ (by omega),
      Nat.div_div_eq_div_mul, List.append_assoc]
    rfl

end ShardMesh.Bytes
