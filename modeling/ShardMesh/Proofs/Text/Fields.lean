import ShardMesh.Text.Number

/-!
# Fields and numbers in texts

A text is cut at a separator into fields and put together again from them (`fields_eq_iff`), and a
number has a written form that reads back (`number?_decimal`). `Denotes` says which texts stand for
a number; reading takes exactly these.
-/

namespace ShardMesh.Text

/-! ## Cutting everywhere -/

/-- Cutting a text into fields is splitting it as a list. -/
theorem fields_eq_splitOn (sep : Char) (text : List Char) : fields sep text = text.splitOn sep := by
  induction text with
  | nil => rfl
  | cons c rest ih =>
    rw [List.splitOn_cons_eq_if_modifyHead, fields, ih]
    simp only [beq_iff_eq]
    split
    · rfl
    · have hne := List.splitOn_ne_nil sep rest
      split
      · rename_i heq
        rw [heq, List.modifyHead_cons]
      · contradiction

/-- No field holds the separator. -/
theorem not_mem_of_mem_fields {sep : Char} {text piece : List Char}
    (h : piece ∈ fields sep text) : sep ∉ piece := by
  induction text generalizing piece with
  | nil =>
    rw [fields, List.mem_singleton] at h
    rw [h]
    exact List.not_mem_nil
  | cons c rest ih =>
    rw [fields] at h
    split at h
    · rcases List.mem_cons.mp h with rfl | h
      · exact List.not_mem_nil
      · exact ih h
    · rename_i hc
      split at h
      · rename_i first more heq
        rcases List.mem_cons.mp h with rfl | h
        · have hfirst := @ih first (heq ▸ List.mem_cons_self)
          exact List.not_mem_cons_of_ne_of_not_mem (Ne.symm hc) hfirst
        · exact ih (heq ▸ List.mem_cons_of_mem first h)
      · rw [List.mem_singleton] at h
        rw [h, List.mem_singleton]
        exact fun hsep => hc hsep.symm

/-- The fields of a text are the pieces without separator that make it up, one at least. -/
theorem fields_eq_iff {sep : Char} {text : List Char} {pieces : List (List Char)} :
    fields sep text = pieces ↔
      pieces ≠ [] ∧ (∀ piece ∈ pieces, sep ∉ piece) ∧ text = [sep].intercalate pieces := by
  constructor
  · rintro rfl
    refine ⟨?_, fun piece => not_mem_of_mem_fields, ?_⟩
    · rw [fields_eq_splitOn]
      exact List.splitOn_ne_nil sep text
    · rw [fields_eq_splitOn, List.intercalate_splitOn]
  · rintro ⟨hne, hpieces, rfl⟩
    rw [fields_eq_splitOn, List.splitOn_intercalate sep hpieces hne]

/-! ## Cutting at the last separator -/

theorem cutLast_eq_none_iff {sep : Char} {text : List Char} :
    cutLast sep text = none ↔ sep ∉ text := by
  induction text with
  | nil => exact iff_of_true rfl List.not_mem_nil
  | cons c rest ih =>
    rw [cutLast, List.mem_cons]
    cases hrest : cutLast sep rest with
    | some cut =>
      have hmem : ¬ sep ∉ rest := fun hnot => by simp [ih.mpr hnot] at hrest
      exact iff_of_false (by simp) fun hnot => hmem fun hin => hnot (.inr hin)
    | none =>
      have hnot := ih.mp hrest
      by_cases hc : c = sep
      · simp [hc]
      · simp [hc, hnot, Ne.symm hc]

theorem cutLast_append {sep : Char} {after : List Char} (h : sep ∉ after) (before : List Char) :
    cutLast sep (before ++ sep :: after) = some (before, after) := by
  induction before with
  | nil => rw [List.nil_append, cutLast, cutLast_eq_none_iff.mpr h, if_pos rfl]
  | cons c before ih => rw [List.cons_append, cutLast, ih]

/-- The last separator is the one behind which there is none. -/
theorem cutLast_eq_some_iff {sep : Char} {text before after : List Char} :
    cutLast sep text = some (before, after) ↔ text = before ++ sep :: after ∧ sep ∉ after := by
  constructor
  · intro h
    induction text generalizing before with
    | nil => cases h
    | cons c rest ih =>
      rw [cutLast] at h
      split at h
      · rename_i hrest
        cases h
        obtain ⟨rfl, hafter⟩ := ih hrest
        exact ⟨rfl, hafter⟩
      · rename_i hrest
        split at h <;> cases h
        exact ⟨by rw [‹c = sep›]; rfl, cutLast_eq_none_iff.mp hrest⟩
  · rintro ⟨rfl, hafter⟩
    exact cutLast_append hafter before

/-! ## Numbers -/

/-- A text stands for a number: there may be a plus sign, and then come one or more decimal digits,
    the first of which may be zeros. -/
def Denotes (text : List Char) (n : Nat) : Prop :=
  ∃ digits, (text = digits ∨ text = '+' :: digits) ∧ digits ≠ [] ∧ (∀ c ∈ digits, c.isDigit) ∧
    Nat.ofDigitChars 10 digits 0 = n

/-- A row of digits, one at least, has a value. -/
theorem digitsValue?_eq_some_iff {digits : List Char} {n : Nat} :
    digitsValue? digits = some n ↔ (∀ c ∈ digits, c.isDigit) ∧ Nat.ofDigitChars 10 digits 0 = n := by
  have hvalue : digits.foldl (fun n c => 10 * n + (c.toNat - 48)) 0 = Nat.ofDigitChars 10 digits 0 :=
    Nat.ofDigitChars_eq_foldl.symm
  rw [digitsValue?, hvalue]
  split
  · rename_i hdigits
    rw [Option.some_inj]
    exact (and_iff_right (List.all_eq_true.mp hdigits)).symm
  · rename_i hdigits
    exact iff_of_false (by simp) fun h => hdigits (List.all_eq_true.mpr h.1)

/-- The sign is not a digit: behind a plus sign stand the digits. -/
theorem denotes_plus {rest : List Char} {n : Nat} :
    Denotes ('+' :: rest) n ↔
      rest ≠ [] ∧ (∀ c ∈ rest, c.isDigit) ∧ Nat.ofDigitChars 10 rest 0 = n := by
  constructor
  · rintro ⟨digits, rfl | htext, hne, hdigits, hvalue⟩
    · exact absurd (hdigits '+' List.mem_cons_self) (by decide)
    · cases htext
      exact ⟨hne, hdigits, hvalue⟩
  · rintro h
    exact ⟨rest, .inr rfl, h⟩

theorem denotes_of_no_plus {text : List Char} {n : Nat} (h : ∀ rest, text ≠ '+' :: rest) :
    Denotes text n ↔ text ≠ [] ∧ (∀ c ∈ text, c.isDigit) ∧ Nat.ofDigitChars 10 text 0 = n := by
  constructor
  · rintro ⟨digits, rfl | htext, hdigits⟩
    · exact hdigits
    · exact absurd htext (h digits)
  · rintro hdigits
    exact ⟨text, .inl rfl, hdigits⟩

/-- Reading a number takes the texts that stand for a number below the bound. -/
theorem number?_eq_some_iff {bound n : Nat} {text : List Char} :
    number? bound text = some n ↔ n < bound ∧ Denotes text n := by
  have hread (digits : List Char) :
      (if digits.isEmpty then none else (digitsValue? digits).filter (· < bound)) = some n ↔
        n < bound ∧ digits ≠ [] ∧ (∀ c ∈ digits, c.isDigit) ∧ Nat.ofDigitChars 10 digits 0 = n := by
    by_cases hnil : digits = []
    · simp [hnil]
    · rw [if_neg (by simpa using hnil), Option.filter_eq_some_iff, digitsValue?_eq_some_iff,
        decide_eq_true_iff]
      exact ⟨fun h => ⟨h.2, hnil, h.1⟩, fun h => ⟨h.2.2, h.1⟩⟩
  unfold number?
  split
  · rw [hread, denotes_plus]
  · rename_i hplus
    rw [hread, denotes_of_no_plus hplus]

/-- A number that is written is read back. -/
theorem number?_decimal {bound n : Nat} (h : n < bound) : number? bound (decimal n) = some n := by
  rw [number?_eq_some_iff]
  refine ⟨h, decimal n, .inl rfl, Nat.toDigits_ne_nil, fun c hc => ?_, Nat.ofDigitChars_ten_toDigits⟩
  exact Nat.isDigit_of_mem_toDigits (by decide) (by decide) hc

/-- What is no digit is not in the written form of a number. -/
theorem not_mem_decimal {c : Char} (hc : c.isDigit = false) (n : Nat) : c ∉ decimal n := by
  intro hmem
  have hdigit := Nat.isDigit_of_mem_toDigits (b := 10) (by decide) (by decide) hmem
  rw [hc] at hdigit
  cases hdigit

end ShardMesh.Text
