import ShardMesh.Bytes

/-!
# Numbers in bytes

Writing a number in a fixed number of bytes and reading it back gives the number again, as long as
it fits, in both byte orders. Most significant byte first, reading bytes and writing them back gives
the bytes again.
-/

namespace ShardMesh.Bytes

/-- The byte of a number has the number's remainder for its value. -/
theorem toNat_ofNat_mod (n : Nat) : (UInt8.ofNat n).toNat = n % 256 := by
  simp

/-- One more byte says 256 times as much. -/
theorem pow_width_succ (width : Nat) : Nat.pow 256 (width + 1) = Nat.pow 256 width * 256 := rfl

theorem mod_pow_width_succ (width n : Nat) :
    n % Nat.pow 256 (width + 1) =
      n % Nat.pow 256 width + Nat.pow 256 width * (n / Nat.pow 256 width % 256) :=
  Nat.mod_mul

/-! ## Little-endian -/

/-- Reading back the low digits of a number gives its remainder. -/
theorem toNatLE_ofNatLE_mod (width n : Nat) :
    toNatLE (ofNatLE width n) = n % Nat.pow 256 width := by
  induction width generalizing n with
  | zero => exact (Nat.mod_one n).symm
  | succ width ih =>
    rw [ofNatLE, toNatLE, ih, toNat_ofNat_mod, pow_width_succ, Nat.mul_comm (Nat.pow 256 width),
      Nat.mod_mul]

theorem toNatLE_ofNatLE {width n : Nat} (h : n < Nat.pow 256 width) :
    toNatLE (ofNatLE width n) = n := by
  rw [toNatLE_ofNatLE_mod, Nat.mod_eq_of_lt h]

/-! ## Big-endian -/

/-- Digits that follow others count less than these. -/
theorem toNatBE_foldl (acc : Nat) (bytes : Bytes) :
    bytes.foldl (fun n b => n * 256 + b.toNat) acc =
      acc * Nat.pow 256 bytes.length + toNatBE bytes := by
  induction bytes generalizing acc with
  | nil => exact (Nat.mul_one acc).symm
  | cons b bytes ih =>
    have hb : toNatBE (b :: bytes) = b.toNat * Nat.pow 256 bytes.length + toNatBE bytes := by
      rw [toNatBE, List.foldl_cons, ih, Nat.zero_mul, Nat.zero_add]
    rw [List.foldl_cons, ih, hb, List.length_cons, pow_width_succ,
      Nat.mul_comm (Nat.pow 256 bytes.length), Nat.add_mul, Nat.mul_assoc, Nat.add_assoc]

theorem toNatBE_cons (b : UInt8) (bytes : Bytes) :
    toNatBE (b :: bytes) = b.toNat * Nat.pow 256 bytes.length + toNatBE bytes := by
  rw [toNatBE, List.foldl_cons, toNatBE_foldl, Nat.zero_mul, Nat.zero_add]

/-- Reading back the low digits of a number gives its remainder. -/
theorem toNatBE_ofNatBE_mod (width n : Nat) :
    toNatBE (ofNatBE width n) = n % Nat.pow 256 width := by
  induction width with
  | zero => exact (Nat.mod_one n).symm
  | succ width ih =>
    rw [ofNatBE, toNatBE_cons, ih, toNat_ofNat_mod, length_ofNatBE, mod_pow_width_succ,
      Nat.mul_comm, Nat.add_comm]

theorem toNatBE_ofNatBE {width n : Nat} (h : n < Nat.pow 256 width) :
    toNatBE (ofNatBE width n) = n := by
  rw [toNatBE_ofNatBE_mod, Nat.mod_eq_of_lt h]

/-- A number that is one byte is written as this byte. -/
theorem ofNatBE_one (b : UInt8) : ofNatBE 1 b.toNat = [b] := by
  simp [ofNatBE]

theorem pow_width_pos (width : Nat) : 0 < Nat.pow 256 width := Nat.pow_pos (by decide)

/-- Bytes read as a number are too few for a larger one. -/
theorem toNatBE_lt (bytes : Bytes) : toNatBE bytes < Nat.pow 256 bytes.length := by
  induction bytes with
  | nil => exact Nat.one_pos
  | cons b bytes ih =>
    have hb := b.toNat_lt
    have hhead : b.toNat * Nat.pow 256 bytes.length ≤ 255 * Nat.pow 256 bytes.length :=
      Nat.mul_le_mul_right _ (by omega)
    rw [toNatBE_cons, List.length_cons, pow_width_succ]
    omega

/-- Only the most significant byte counts above the others. -/
theorem ofNatBE_add_mul (width n k : Nat) :
    ofNatBE width (k * Nat.pow 256 width + n) = ofNatBE width n := by
  induction width generalizing k with
  | zero => rfl
  | succ width ih =>
    have hdigit : (k * Nat.pow 256 (width + 1) + n) / Nat.pow 256 width =
        n / Nat.pow 256 width + 256 * k := by
      rw [pow_width_succ, Nat.mul_comm (Nat.pow 256 width), ← Nat.mul_assoc, Nat.add_comm,
        Nat.add_mul_div_right _ _ (pow_width_pos width), Nat.mul_comm k]
    have hbyte : UInt8.ofNat (n / Nat.pow 256 width + 256 * k) =
        UInt8.ofNat (n / Nat.pow 256 width) := by
      apply UInt8.toNat.inj
      rw [toNat_ofNat_mod, toNat_ofNat_mod, Nat.add_mul_mod_self_left]
    rw [ofNatBE, ofNatBE, hdigit, hbyte, pow_width_succ, Nat.mul_comm (Nat.pow 256 width),
      ← Nat.mul_assoc, ih]

/-- Writing the number that bytes stand for gives the bytes again. -/
theorem ofNatBE_toNatBE (bytes : Bytes) : ofNatBE bytes.length (toNatBE bytes) = bytes := by
  induction bytes with
  | nil => rfl
  | cons b bytes ih =>
    have hhead : (b.toNat * Nat.pow 256 bytes.length + toNatBE bytes) / Nat.pow 256 bytes.length =
        b.toNat := by
      rw [Nat.add_comm, Nat.add_mul_div_right _ _ (pow_width_pos _),
        Nat.div_eq_of_lt (toNatBE_lt bytes), Nat.zero_add]
    rw [List.length_cons, ofNatBE, toNatBE_cons, hhead, UInt8.ofNat_toNat, ofNatBE_add_mul, ih]

end ShardMesh.Bytes
