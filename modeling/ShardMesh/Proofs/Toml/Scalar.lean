import Mathlib.Data.Bool.AllAny
import ShardMesh.Proofs.Text.Fields
import ShardMesh.Proofs.Toml.Quoted

/-!
# Simple values read back

A text, a truth value, an integer of 64 bits and an empty array are read as what they were written for
(`value?_scalar`). Digits are not taken for a date or a time, which need separators, nor for a number in
another base.
-/

namespace ShardMesh.Toml.Scalar

open Text (decimal)

/-! ## Digits -/

theorem isDigit_of_mem_decimal {n : Nat} {c : Char} (hc : c ∈ decimal n) : c.isDigit = true :=
  Nat.isDigit_of_mem_toDigits (by decide) (by decide) hc

theorem hexValue?_of_isDigit {c : Char} (hc : c.isDigit = true) :
    Bytes.hexValue? c = some (c.toNat - 48) := if_pos hc

theorem isDigitOf_of_isDigit {c : Char} (hc : c.isDigit = true) : isDigitOf 10 c = true := by
  have hlt : c.toNat - 48 < 10 := by
    simp only [Char.isDigit, Bool.and_eq_true, decide_eq_true_eq] at hc
    have hle : c.toNat ≤ 57 := hc.2
    omega
  simp [isDigitOf, hexValue?_of_isDigit hc, hlt]

/-- The value of decimal digits. -/
theorem valueOf_digits {digits : List Char} (h : ∀ c ∈ digits, c.isDigit = true) :
    valueOf 10 digits = Nat.ofDigitChars 10 digits 0 := by
  have hfold : ∀ start, digits.foldl (fun n c => 10 * n + (Bytes.hexValue? c).getD 0) start =
      digits.foldl (fun n c => 10 * n + (c.toNat - '0'.toNat)) start := by
    induction digits with
    | nil => exact fun _ => rfl
    | cons c digits ih =>
      obtain ⟨hc, hrest⟩ := List.forall_mem_cons.mp h
      intro start
      rw [List.foldl_cons, List.foldl_cons, ih hrest, hexValue?_of_isDigit hc]
      rfl
  rw [Nat.ofDigitChars_eq_foldl]
  exact hfold 0

theorem valueOf_decimal (n : Nat) : valueOf 10 (decimal n) = n := by
  rw [valueOf_digits fun c => isDigit_of_mem_decimal]
  exact Nat.ofDigitChars_ten_toDigits

/-- Only zero starts with the digit zero. -/
theorem decimal_ne_zero_cons (n : Nat) (c : Char) (rest : List Char) :
    decimal n ≠ '0' :: c :: rest := by
  induction n using Nat.strongRecOn generalizing c rest with
  | _ n ih =>
    intro h
    rw [decimal, Nat.toDigits_eq_if (by decide)] at h
    split at h
    · cases (List.cons.inj h).2
    · rename_i hn
      have hless : n / 10 < n := Nat.div_lt_self (by omega) (by decide)
      have hne : Nat.toDigits 10 (n / 10) ≠ [] := Nat.toDigits_ne_nil
      -- the first digit is that of the tenth part, which is not zero
      cases hdigits : Nat.toDigits 10 (n / 10) with
      | nil => exact hne hdigits
      | cons d digits =>
        rw [hdigits] at h
        obtain ⟨rfl, hrest⟩ := List.cons.inj h
        cases digits with
        | cons e digits => exact ih (n / 10) hless e digits hdigits
        | nil =>
          have hvalue := valueOf_decimal (n / 10)
          rw [decimal, hdigits] at hvalue
          have hzero : n / 10 = 0 := hvalue.symm
          omega

theorem decimal?_decimal (n : Nat) : decimal? (decimal n) = some (decimal n) := by
  have hne : decimal n ≠ [] := Nat.toDigits_ne_nil
  have hfields : Text.fields '_' (decimal n) = [decimal n] := by
    refine Text.fields_eq_iff.mpr ⟨List.cons_ne_nil _ _, fun piece hpiece => ?_, ?_⟩
    · rw [List.mem_singleton.mp hpiece]
      exact Text.not_mem_decimal (by decide) n
    · simp
  have hall : (decimal n).all (isDigitOf 10) = true :=
    List.all_eq_true.mpr fun c hc => isDigitOf_of_isDigit (isDigit_of_mem_decimal hc)
  have hungrouped : ungrouped? 10 (decimal n) = some (decimal n) := by
    simp [ungrouped?, hfields, hne, hall]
  rw [decimal?, hungrouped]
  split
  · rename_i heq
    exact absurd (Option.some.inj heq) (decimal_ne_zero_cons n _ _)
  · rename_i digits _ heq
    obtain rfl := Option.some.inj heq
    rw [if_neg (by simpa using hne)]
  · rename_i heq
    cases heq

/-! ## Integers -/

/-- An integer as it is written: its digits, after a minus sign if it is negative. -/
def written (n : Int) : List Char :=
  if n < 0 then '-' :: decimal n.natAbs else decimal n.natAbs

theorem toList_toString (n : Int) : (toString n).toList = written n := by
  cases n with
  | ofNat m =>
    have hnat : toString (Int.ofNat m) = m.repr := rfl
    rw [hnat, Nat.toList_repr, written, if_neg (by simp)]
    rfl
  | negSucc m =>
    have hneg : toString (Int.negSucc m) = "-" ++ (m + 1).repr := rfl
    rw [hneg, String.toList_append, Nat.toList_repr, written, if_pos (Int.negSucc_lt_zero m)]
    rfl

theorem of_mem_written {n : Int} {c : Char} (hc : c ∈ written n) : c.isDigit = true ∨ c = '-' := by
  unfold written at hc
  split at hc
  · rcases List.mem_cons.mp hc with rfl | hc
    · exact .inr rfl
    · exact .inl (isDigit_of_mem_decimal hc)
  · exact .inl (isDigit_of_mem_decimal hc)

theorem not_mem_written {c : Char} (hdigit : c.isDigit = false) (hminus : c ≠ '-') (n : Int) :
    c ∉ written n := by
  intro hc
  rcases of_mem_written hc with h | h
  · rw [hdigit] at h
    cases h
  · exact hminus h

/-- After some digits at the beginning there is no separator. -/
theorem expect?_of_fixed? {count : Nat} (hcount : 0 < count) {separator : Char}
    (hdigit : separator.isDigit = false) {n : Int} {value : Nat} {rest : List Char}
    (h : fixed? count (written n) = some (value, rest)) : expect? separator rest = none := by
  unfold fixed? at h
  dsimp only at h
  split at h
  · rename_i hfixed
    obtain ⟨hlength, hdigits⟩ := hfixed
    obtain rfl : (written n).drop count = rest := (Prod.mk.inj (Option.some.inj h)).2
    cases hrest : (written n).drop count with
    | nil => rfl
    | cons c rest =>
      -- a minus sign would be the first character, and that is a digit
      have hmem : c ∈ (written n).drop count := by
        rw [hrest]
        exact List.mem_cons_self
      have hc : c.isDigit = true := by
        unfold written at hmem hdigits
        split at hmem
        · rename_i hneg
          rw [if_pos hneg] at hdigits
          obtain ⟨count, rfl⟩ := Nat.exists_eq_add_one_of_ne_zero (Nat.ne_of_gt hcount)
          exact isDigit_of_mem_decimal (List.mem_of_mem_drop hmem)
        · exact isDigit_of_mem_decimal (List.mem_of_mem_drop hmem)
      rw [expect?, if_neg]
      rintro rfl
      rw [hdigit] at hc
      cases hc
  · cases h

theorem datetime?_written (n : Int) : datetime? (written n) = none := by
  have hdate : date? (written n) = none := by
    unfold date?
    cases hfixed : fixed? 4 (written n) with
    | none => rfl
    | some found =>
      obtain ⟨year, rest⟩ := found
      simp [expect?_of_fixed? (by decide) (by decide : '-'.isDigit = false) hfixed]
  have htime : time? (written n) = none := by
    unfold time?
    cases hfixed : fixed? 2 (written n) with
    | none => rfl
    | some found =>
      obtain ⟨hour, rest⟩ := found
      simp [expect?_of_fixed? (by decide) (by decide : ':'.isDigit = false) hfixed]
  rw [datetime?, hdate, htime]

theorem based?_written (n : Int) : based? (written n) = none := by
  have hletter (c : Char) (hdigit : c.isDigit = false) (hminus : c ≠ '-') (d : Char)
      (rest : List Char) : written n ≠ d :: c :: rest := by
    intro h
    refine not_mem_written hdigit hminus n ?_
    rw [h]
    exact List.mem_cons_of_mem d List.mem_cons_self
  unfold based?
  split
  · rename_i h
    exact absurd h (hletter 'x' (by decide) (by decide) '0' _)
  · rename_i h
    exact absurd h (hletter 'o' (by decide) (by decide) '0' _)
  · rename_i h
    exact absurd h (hletter 'b' (by decide) (by decide) '0' _)
  · rfl

theorem sign_decimal (n : Nat) : sign (decimal n) = (false, decimal n) := by
  unfold sign
  split
  · rename_i h
    have hmem : '-' ∈ decimal n := by rw [h]; exact List.mem_cons_self
    exact absurd hmem (Text.not_mem_decimal (by decide) n)
  · rename_i h
    have hmem : '+' ∈ decimal n := by rw [h]; exact List.mem_cons_self
    exact absurd hmem (Text.not_mem_decimal (by decide) n)
  · rfl

/-- An integer of 64 bits is read back. -/
theorem integer?_written {n : Int} (hlow : -(integerBound : Int) ≤ n) (hhigh : n < integerBound) :
    integer? (written n) = some (.integer n) := by
  rw [integer?, based?_written]
  dsimp only
  unfold written
  split
  · rename_i hneg
    have hle : n.natAbs ≤ integerBound := by omega
    have hvalue : -(n.natAbs : Int) = n := by omega
    simp only [sign, decimal?_decimal, valueOf_decimal, Option.bind_eq_bind, Option.bind_some]
    rw [if_pos trivial, if_pos hle, hvalue]
  · rename_i hpos
    have hlt : n.natAbs < integerBound := by omega
    have hvalue : (n.natAbs : Int) = n := by omega
    simp only [sign_decimal, decimal?_decimal, valueOf_decimal, Option.bind_eq_bind, Option.bind_some]
    rw [if_neg Bool.false_ne_true, if_pos hlt, hvalue]

theorem ofText?_written {n : Int} (hlow : -(integerBound : Int) ≤ n) (hhigh : n < integerBound) :
    ofText? (written n) = some (.integer n) := by
  have hno {c : Char} (hdigit : c.isDigit = false) (hminus : c ≠ '-') {word : List Char}
      (hc : c ∈ word) : written n ≠ word := by
    rintro rfl
    exact not_mem_written hdigit hminus n hc
  rw [ofText?, if_neg (hno (c := 'e') (by decide) (by decide) (by decide)),
    if_neg (hno (c := 'e') (by decide) (by decide) (by decide)), datetime?_written,
    integer?_written hlow hhigh]
  rfl

/-! ## Where a scalar ends -/

/-- What no character ends is cut off at the end of the line. -/
theorem cut_append {text : List Char} (h : ∀ c ∈ text, isEnd c = false) (rest : List Char) :
    cut (text ++ '\n' :: rest) = (text, '\n' :: rest) := by
  have hbefore : cutBefore isEnd (text ++ '\n' :: rest) = (text, '\n' :: rest) := by
    have hstop : isEnd '\n' = true := by decide
    have hpos : ∀ c ∈ text, (!isEnd c) = true := fun c hc => by rw [h c hc]; rfl
    rw [cutBefore, List.takeWhile_append_of_pos hpos, List.dropWhile_append_of_pos hpos,
      List.takeWhile_cons_of_neg (by simp [hstop]), List.dropWhile_cons_of_neg (by simp [hstop]),
      List.append_nil]
  rw [cut, hbefore]
  rfl

theorem isEnd_of_mem_written {n : Int} {c : Char} (hc : c ∈ written n) : isEnd c = false := by
  have hall : ∀ d ∈ " \t\n\r#,]\x7d=".toList, d.isDigit = false ∧ d ≠ '-' :=
    List.all_iff_forall_prop.mp (by decide)
  rw [isEnd, ← Bool.not_eq_true, List.contains_iff_mem]
  intro hmem
  obtain ⟨hdigit, hminus⟩ := hall c hmem
  exact not_mem_written hdigit hminus n hc

end ShardMesh.Toml.Scalar
