import ShardMesh.Proofs.Wire.Buffer
import ShardMesh.Proofs.Wire.Encoding

/-!
# What a reader accepts

A reader gives a value exactly where the written form of the value stands in the buffer, as far as
its region goes (`Reader.get_eq_ok_iff`), and so with rows of values (`Reader.getAll_eq_ok_iff`). Where
the written form stands in the buffer but the region is too short for it, the reader underflows.
-/

namespace ShardMesh.Wire.Reader

/-! ## Single values -/

/-- The reader after some bytes. -/
def advance (r : Reader) (count : Nat) : Reader := { r with position := r.position + count }

@[simp] theorem advance_zero (r : Reader) : r.advance 0 = r := rfl

@[simp] theorem advance_advance (r : Reader) (count more : Nat) :
    (r.advance count).advance more = r.advance (count + more) := by
  simp [advance, Nat.add_assoc]

@[simp] theorem remaining_advance (r : Reader) (count : Nat) :
    (r.advance count).remaining = r.remaining - count := by
  simp [advance, remaining, Nat.sub_add_eq]

@[simp] theorem consumed_advance (buffer : Bytes) (offset stop count : Nat) :
    ((ofRange buffer offset stop).advance count).consumed = count :=
  Nat.add_sub_cancel_left offset count

/-- Some bytes come next in the region of a reader. -/
structure Holds (r : Reader) (bytes : Bytes) : Prop where
  fits : bytes.length ≤ r.remaining
  stand : bytes.StandAt r.buffer r.position

theorem holds_append {r : Reader} {bytes more : Bytes} :
    r.Holds (bytes ++ more) ↔ r.Holds bytes ∧ (r.advance bytes.length).Holds more := by
  constructor
  · rintro ⟨hfits, hstand⟩
    obtain ⟨hbytes, hmore⟩ := Bytes.standAt_append.mp hstand
    rw [List.length_append] at hfits
    refine ⟨⟨by omega, hbytes⟩, ⟨?_, hmore⟩⟩
    rw [remaining_advance]
    omega
  · rintro ⟨⟨hfits, hbytes⟩, ⟨hmorefits, hmore⟩⟩
    rw [remaining_advance] at hmorefits
    refine ⟨?_, Bytes.standAt_append.mpr ⟨hbytes, hmore⟩⟩
    rw [List.length_append]
    omega

theorem take_eq_ok_iff {r r' : Reader} {count : Nat} {bytes : Bytes} :
    r.take count = (.ok bytes, r') ↔ bytes.length = count ∧ r.Holds bytes ∧ r' = r.advance count := by
  constructor
  · intro h
    unfold take at h
    split at h
    · cases h
    · rename_i hfits
      split at h
      · cases h
      · rename_i hbound
        cases h
        have hlength := Bytes.length_slice (Nat.not_lt.mp hbound)
        refine ⟨hlength, ⟨?_, Bytes.standAt_slice (Nat.not_lt.mp hbound)⟩, rfl⟩
        rw [hlength]
        exact Nat.not_lt.mp hfits
  · rintro ⟨rfl, ⟨hfits, hstand⟩, rfl⟩
    have hbound := hstand.bound
    rw [take, if_neg (Nat.not_lt.mpr hfits), if_neg (Nat.not_lt.mpr hbound), hstand.slice]
    rfl

/-- A region that is too short for a number of bytes has none of them. -/
theorem take_of_short {r : Reader} {count : Nat} (h : r.remaining < count) :
    r.take count = (.error (.bufferUnderflow r.position count r.remaining), r) := if_pos h

/-- The two bytes in front of a body are its length. -/
theorem takePrefixed_eq_ok_iff {r r' : Reader} {body : Bytes} :
    r.takePrefixed = (.ok body, r') ↔
      body.length ≤ maxPrefixedLength ∧ r.Holds (Bytes.ofNatBE 2 body.length ++ body) ∧
        r' = r.advance (2 + body.length) := by
  constructor
  · intro h
    unfold takePrefixed takeNat at h
    rcases hhead : r.take 2 with ⟨_ | head, next⟩
    · rw [hhead] at h
      cases h
    · rw [hhead] at h
      obtain ⟨htwo, hholds, rfl⟩ := take_eq_ok_iff.mp hhead
      obtain ⟨hlength, hbody, rfl⟩ := take_eq_ok_iff.mp h
      have hannounced : Bytes.ofNatBE 2 body.length = head := by
        rw [hlength, ← htwo, Bytes.ofNatBE_toNatBE]
      refine ⟨?_, ?_, ?_⟩
      · have hlt := Bytes.toNatBE_lt head
        rw [htwo, ← hlength] at hlt
        exact Nat.le_of_lt_succ hlt
      · rw [hannounced, holds_append, htwo]
        exact ⟨hholds, hbody⟩
      · rw [advance_advance, hlength]
  · rintro ⟨hshort, hholds, rfl⟩
    obtain ⟨hhead, hbody⟩ := holds_append.mp hholds
    rw [Bytes.length_ofNatBE] at hbody
    have hlt : body.length < Nat.pow 256 2 := Nat.lt_succ_of_le hshort
    have hfirst : r.take 2 = (.ok (Bytes.ofNatBE 2 body.length), r.advance 2) :=
      take_eq_ok_iff.mpr ⟨Bytes.length_ofNatBE .., hhead, rfl⟩
    unfold takePrefixed takeNat
    rw [hfirst]
    dsimp only
    rw [Bytes.toNatBE_ofNatBE hlt, ← advance_advance]
    exact take_eq_ok_iff.mpr ⟨rfl, hbody, rfl⟩

/-- Reads the body of a value: as many bytes as its type has, or as the length in front says. -/
def takeBody (r : Reader) (t : FieldType) : Except ProtocolError Bytes × Reader :=
  match t.width? with
  | some width => r.take width
  | none => r.takePrefixed

theorem get_eq (r : Reader) (t : FieldType) :
    r.get t = ((r.takeBody t).1.bind t.read, (r.takeBody t).2) := by
  cases t
  case bytes | text =>
    simp only [get, takeBody, FieldType.width?]
    rcases r.takePrefixed with ⟨_ | _, _⟩ <;> rfl
  all_goals
    simp only [get, takeNat, takeBody, FieldType.width?]
    generalize r.take _ = taken
    rcases taken with ⟨_ | _, _⟩ <;> rfl

theorem takeBody_eq_ok_iff {r r' : Reader} {v : Value} :
    r.takeBody v.type = (.ok v.body, r') ↔
      v.Writable ∧ r.Holds v.encoding ∧ r' = r.advance v.encoding.length := by
  have hprefixed := v.isPrefixed_eq
  unfold takeBody
  split
  · rename_i width hwidth
    rw [hwidth] at hprefixed
    rw [take_eq_ok_iff, Value.encoding_of_bare hprefixed, v.length_body hwidth]
    exact ⟨fun h => ⟨Value.writable_of_bare hprefixed, h.2⟩, fun h => ⟨rfl, h.2⟩⟩
  · rename_i hwidth
    rw [hwidth] at hprefixed
    rw [takePrefixed_eq_ok_iff, Value.encoding_of_prefixed hprefixed, List.length_append,
      Bytes.length_ofNatBE]
    exact and_congr_left' ⟨fun h _ => h, fun h => h hprefixed⟩

/-- A reader gives a value exactly where the written form of the value comes next, and goes on behind
    it. -/
theorem get_eq_ok_iff {r r' : Reader} {t : FieldType} {v : Value} :
    r.get t = (.ok v, r') ↔
      v.type = t ∧ v.Writable ∧ r.Holds v.encoding ∧ r' = r.advance v.encoding.length := by
  rw [get_eq]
  constructor
  · intro h
    obtain ⟨hvalue, hnext⟩ := Prod.mk.inj h
    rcases htaken : r.takeBody t with ⟨_ | body, next⟩
    · rw [htaken] at hvalue
      cases hvalue
    · rw [htaken] at hvalue hnext
      have hwidth : ∀ width, t.width? = some width → body.length = width := by
        intro width hwidth
        rw [takeBody, hwidth] at htaken
        exact (take_eq_ok_iff.mp htaken).1
      obtain ⟨rfl, rfl⟩ := (FieldType.read_eq_ok_iff hwidth).mp hvalue
      obtain rfl : next = r' := hnext
      exact ⟨rfl, takeBody_eq_ok_iff.mp htaken⟩
  · rintro ⟨rfl, h⟩
    rw [takeBody_eq_ok_iff.mpr h]
    have hread := FieldType.read_eq_ok_iff (fun _ => v.length_body) |>.mpr ⟨rfl, rfl⟩
    exact Prod.ext hread rfl

/-- A reader whose region ends inside the written form of a value underflows. -/
theorem get_of_short {r : Reader} {v : Value} (hv : v.Writable)
    (hstand : v.encoding.StandAt r.buffer r.position) (hshort : r.remaining < v.encoding.length) :
    ∃ position needed available,
      (r.get v.type).1 = .error (.bufferUnderflow position needed available) := by
  have hprefixed := v.isPrefixed_eq
  rw [get_eq, takeBody]
  split
  · rename_i width hwidth
    rw [hwidth] at hprefixed
    rw [Value.encoding_of_bare hprefixed, v.length_body hwidth] at hshort
    rw [take_of_short hshort]
    exact ⟨_, _, _, rfl⟩
  · rename_i hwidth
    rw [hwidth] at hprefixed
    rw [Value.encoding_of_prefixed hprefixed] at hstand hshort
    rw [List.length_append, Bytes.length_ofNatBE] at hshort
    unfold takePrefixed takeNat
    by_cases hhead : r.remaining < 2
    · rw [take_of_short hhead]
      exact ⟨_, _, _, rfl⟩
    · -- the length can be read, and says more than there is
      have hholds : r.Holds (Bytes.ofNatBE 2 v.body.length) := by
        refine ⟨?_, (Bytes.standAt_append.mp hstand).1⟩
        rw [Bytes.length_ofNatBE]
        exact Nat.not_lt.mp hhead
      have hlt : v.body.length < Nat.pow 256 2 := Nat.lt_succ_of_le (hv hprefixed)
      have hbody : (r.advance 2).remaining < v.body.length := by
        rw [remaining_advance]
        omega
      rw [take_eq_ok_iff.mpr ⟨Bytes.length_ofNatBE .., hholds, rfl⟩]
      dsimp only
      rw [Bytes.toNatBE_ofNatBE hlt, take_of_short hbody]
      exact ⟨_, _, _, rfl⟩

/-! ## Rows of values -/

theorem getAll_cons_of_ok {r r' : Reader} {t : FieldType} {v : Value} (h : r.get t = (.ok v, r'))
    (types : List FieldType) :
    r.getAll (t :: types) = ((r'.getAll types).1.map (v :: ·), (r'.getAll types).2) := by
  rw [getAll, h]
  rfl

/-- A reader gives a row of values exactly where the written forms of the values come next, and goes
    on behind them. To read nothing it need not be inside its buffer. -/
theorem getAll_eq_ok_iff {r r' : Reader} {types : List FieldType} {values : List Value} :
    r.getAll types = (.ok values, r') ↔
      values.map Value.type = types ∧ (∀ v ∈ values, v.Writable) ∧
        (values ≠ [] → r.Holds (encodingOf values)) ∧
        r' = r.advance (encodingOf values).length := by
  induction types generalizing r r' values with
  | nil =>
    rw [getAll]
    constructor
    · intro h
      cases h
      exact ⟨rfl, by simp, by simp, rfl⟩
    · rintro ⟨htypes, -, -, rfl⟩
      rw [List.map_eq_nil_iff.mp htypes]
      rfl
  | cons t types ih =>
    rw [getAll]
    constructor
    · intro h
      rcases hfirst : r.get t with ⟨_ | v, next⟩
      · rw [hfirst] at h
        cases h
      · rw [hfirst] at h
        dsimp only at h
        rcases hrest : next.getAll types with ⟨_ | rest, last⟩
        · rw [hrest] at h
          cases h
        · rw [hrest] at h
          cases h
          obtain ⟨rfl, hv, hholds, rfl⟩ := get_eq_ok_iff.mp hfirst
          obtain ⟨rfl, hvalues, hmore, rfl⟩ := ih.mp hrest
          refine ⟨rfl, List.forall_mem_cons.mpr ⟨hv, hvalues⟩, fun _ => ?_, ?_⟩
          · rw [encodingOf_cons, holds_append]
            refine ⟨hholds, ?_⟩
            by_cases hnil : rest = []
            · have hbound := hholds.stand.bound
              subst hnil
              exact ⟨Nat.zero_le _, ⟨hbound, rfl⟩⟩
            · exact hmore hnil
          · rw [encodingOf_cons, List.length_append, advance_advance]
            rfl
    · rintro ⟨htypes, hvalues, hholds, rfl⟩
      cases values with
      | nil => cases htypes
      | cons v rest =>
        obtain ⟨rfl, rfl⟩ := List.cons.inj htypes
        obtain ⟨hv, hrest⟩ := List.forall_mem_cons.mp hvalues
        have hall := hholds (List.cons_ne_nil v rest)
        rw [encodingOf_cons] at hall
        obtain ⟨hhead, hmore⟩ := holds_append.mp hall
        rw [get_eq_ok_iff.mpr ⟨rfl, hv, hhead, rfl⟩, encodingOf_cons, List.length_append,
          ← advance_advance]
        dsimp only
        rw [ih.mpr ⟨rfl, hrest, fun _ => hmore, rfl⟩]
        rfl

/-- A reader whose region ends inside the written forms of a row of values underflows. -/
theorem getAll_of_short {r : Reader} {values : List Value} (hvalues : ∀ v ∈ values, v.Writable)
    (hstand : (encodingOf values).StandAt r.buffer r.position)
    (hshort : r.remaining < (encodingOf values).length) :
    ∃ position needed available,
      (r.getAll (values.map Value.type)).1 = .error (.bufferUnderflow position needed available) := by
  induction values generalizing r with
  | nil => exact absurd hshort (Nat.not_lt_zero _)
  | cons v values ih =>
    obtain ⟨hv, hrest⟩ := List.forall_mem_cons.mp hvalues
    rw [encodingOf_cons] at hstand hshort
    obtain ⟨hfirst, hmore⟩ := Bytes.standAt_append.mp hstand
    rw [List.map_cons]
    by_cases hfits : v.encoding.length ≤ r.remaining
    · have hless : (r.advance v.encoding.length).remaining < (encodingOf values).length := by
        rw [remaining_advance]
        rw [List.length_append] at hshort
        omega
      obtain ⟨position, needed, available, herror⟩ := ih hrest hmore hless
      refine ⟨position, needed, available, ?_⟩
      rw [getAll_cons_of_ok (get_eq_ok_iff.mpr ⟨rfl, hv, ⟨hfits, hfirst⟩, rfl⟩), herror]
      rfl
    · obtain ⟨position, needed, available, herror⟩ := get_of_short hv hfirst (Nat.not_le.mp hfits)
      refine ⟨position, needed, available, ?_⟩
      rw [getAll]
      rcases hget : r.get v.type with ⟨_ | _, next⟩
      · rw [hget] at herror
        cases herror
        rfl
      · rw [hget] at herror
        cases herror

end ShardMesh.Wire.Reader
