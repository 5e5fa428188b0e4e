import ShardMesh.Proofs.Attempts
import ShardMesh.Proofs.Wire.Reader

/-!
# Readers stay in their region

Whoever sends a packet chooses the lengths that are read from it, and a reader may be asked for more
after a refusal. It stays in its region all the same: every step advances by no more than remains
(`Reader.Inside.get_advance`), asks the buffer for nothing that is not there, on a machine whose words
just hold the length of the buffer (`Reader.Inside.getWithin_eq`), and does not see the bytes around the
region (`Reader.Inside.get_inBuffer`).
-/

namespace ShardMesh.Wire

/-! ## Reading on a machine -/

/-- What ends a program at once, instead of an answer. -/
inductive Fault where
  /-- A sum is too large for a word. -/
  | overflow
  /-- Bytes are asked of a place where there are none, or copied to a place of another size. -/
  | outOfRange
  deriving DecidableEq, Repr

/-- A sum on a machine whose words hold the numbers up to `limit`. -/
def sumWithin (limit a b : Nat) : Except Fault Nat :=
  if a + b ≤ limit then .ok (a + b) else .error .overflow

/-- The bytes from `first` up to `stop`, if there are such bytes. -/
def cutOut (bytes : Bytes) (first stop : Nat) : Except Fault Bytes :=
  if first ≤ stop ∧ stop ≤ bytes.length then .ok (bytes.slice first (stop - first))
  else .error .outOfRange

/-- A copy of bytes in a place of the given size. -/
def copyInto (size : Nat) (bytes : Bytes) : Except Fault Bytes :=
  if bytes.length = size then .ok bytes else .error .outOfRange

namespace Reader

/-- Reads a number of bytes, with the sums of a machine. -/
def takeWithin (limit : Nat) (r : Reader) (needed : Nat) :
    Except Fault (Except ProtocolError Bytes × Reader) :=
  if r.remaining < needed then
    .ok (.error (.bufferUnderflow r.position needed r.remaining), r)
  else do
    let stop ← sumWithin limit r.position needed
    let bytes ← cutOut r.buffer r.position stop
    let position ← sumWithin limit r.position needed
    return (.ok bytes, { r with position })

/-- Reads a number of bytes into a place of this size. -/
def takeArrayWithin (limit : Nat) (r : Reader) (size : Nat) :
    Except Fault (Except ProtocolError Bytes × Reader) := do
  match ← r.takeWithin limit size with
  | (.ok bytes, r) => return (.ok (← copyInto size bytes), r)
  | refused => return refused

/-- Reads the body of a value, with the sums of a machine. -/
def takeBodyWithin (limit : Nat) (r : Reader) (t : FieldType) :
    Except Fault (Except ProtocolError Bytes × Reader) :=
  match t.width? with
  | some width => r.takeArrayWithin limit width
  | none => do
    match ← r.takeArrayWithin limit 2 with
    | (.ok head, r) => r.takeWithin limit head.toNatBE
    | refused => return refused

/-- Reads one value of the given type, with the sums of a machine. -/
def getWithin (limit : Nat) (r : Reader) (t : FieldType) :
    Except Fault (Except ProtocolError Value × Reader) := do
  let (taken, next) ← r.takeBodyWithin limit t
  return (taken.bind t.read, next)

/-! ## One step -/

/-- A reader that is in its buffer, as well as the end of its region. -/
structure Inside (r : Reader) : Prop where
  position_le : r.position ≤ r.buffer.length
  stop_le : r.stop ≤ r.buffer.length

theorem inside_ofRange {buffer : Bytes} {offset : Nat} (h : offset ≤ buffer.length) (stop : Nat) :
    (ofRange buffer offset stop).Inside := ⟨h, Nat.min_le_right stop buffer.length⟩

section Inside

variable {r : Reader} {count : Nat}

/-- What a reader in its buffer may read is there: a region that is empty or inverted gives no bytes. -/
theorem Inside.room (h : r.Inside) (hcount : count ≤ r.remaining) :
    r.position + count ≤ r.buffer.length := by
  obtain ⟨hposition, hstop⟩ := h
  unfold remaining at hcount
  omega

theorem Inside.advance (h : r.Inside) (hcount : count ≤ r.remaining) : (r.advance count).Inside :=
  ⟨h.room hcount, h.stop_le⟩

theorem Inside.take_eq (h : r.Inside) (hcount : count ≤ r.remaining) :
    r.take count = (.ok (r.buffer.slice r.position count), r.advance count) := by
  rw [take, if_neg (Nat.not_lt.mpr hcount), if_neg (Nat.not_lt.mpr (h.room hcount))]
  rfl

/-- What can come of reading a body: all of it is read, or too little remains. Then the reader stays
    where it is, or it has read the length of the body only. -/
inductive Taken (r : Reader) (t : FieldType) : Except ProtocolError Bytes × Reader → Prop
  | whole (body : Bytes) (count : Nat) (h : count ≤ r.remaining) :
      Taken r t (.ok body, r.advance count)
  | nothing (needed : Nat) (h : r.remaining < needed) :
      Taken r t (.error (.bufferUnderflow r.position needed r.remaining), r)
  | length (needed : Nat) (ht : t.width? = none) (h : 2 ≤ r.remaining)
      (hless : r.remaining - 2 < needed) :
      Taken r t
        (.error (.bufferUnderflow (r.position + 2) needed (r.remaining - 2)), r.advance 2)

/-- A reader in its buffer takes a body, or says what is missing. -/
theorem Inside.takeBody_taken (h : r.Inside) (t : FieldType) : r.Taken t (r.takeBody t) := by
  unfold takeBody
  cases ht : t.width? with
  | some width =>
    dsimp only
    by_cases hwidth : r.remaining < width
    · rw [take_of_short hwidth]
      exact .nothing width hwidth
    · rw [h.take_eq (Nat.not_lt.mp hwidth)]
      exact .whole _ width (Nat.not_lt.mp hwidth)
  | none =>
    dsimp only
    unfold takePrefixed takeNat
    by_cases hhead : r.remaining < 2
    · rw [take_of_short hhead]
      exact .nothing 2 hhead
    · have htwo := Nat.not_lt.mp hhead
      rw [h.take_eq htwo]
      dsimp only
      generalize (r.buffer.slice r.position 2).toNatBE = announced
      by_cases hbody : (r.advance 2).remaining < announced
      · rw [take_of_short hbody, remaining_advance]
        rw [remaining_advance] at hbody
        exact .length announced ht htwo hbody
      · have hfits := Nat.not_lt.mp hbody
        rw [(h.advance htwo).take_eq hfits, advance_advance]
        rw [remaining_advance] at hfits
        exact .whole _ (2 + announced) (by omega)

/-- What was taken is a step in the region. -/
theorem Taken.exists_advance {t : FieldType} {taken : Except ProtocolError Bytes × Reader}
    (h : r.Taken t taken) : ∃ count, count ≤ r.remaining ∧ taken.2 = r.advance count := by
  cases h with
  | whole body count h => exact ⟨count, h, rfl⟩
  | nothing => exact ⟨0, Nat.zero_le _, (advance_zero r).symm⟩
  | length _ _ h => exact ⟨2, h, rfl⟩

theorem Inside.get_advance (h : r.Inside) (t : FieldType) :
    ∃ count, count ≤ r.remaining ∧ (r.get t).2 = r.advance count := by
  rw [get_eq]
  exact (h.takeBody_taken t).exists_advance

theorem Inside.after_get (h : r.Inside) (t : FieldType) : (r.get t).2.Inside := by
  obtain ⟨count, hcount, hnext⟩ := h.get_advance t
  rw [hnext]
  exact h.advance hcount

end Inside

/-! ## Answers -/

/-- A body is refused for what it says only. -/
theorem exists_cause_of_read {t : FieldType} {body : Bytes} {e : ProtocolError}
    (h : t.read body = .error e) : ∃ cause, e = .malformed cause := by
  cases t
  case bool =>
    simp only [FieldType.read, booleanOf] at h
    split at h
    · cases h
    · split at h
      · cases h
      · cases h
        exact ⟨_, rfl⟩
  case text =>
    simp only [FieldType.read, textOf] at h
    split at h
    · cases h
    · cases h
      exact ⟨_, rfl⟩
  all_goals cases h

section Answers

variable {r : Reader} {t : FieldType} {e : ProtocolError}

/-- A refusal is about the bytes that were read, or about bytes that are missing. Then nothing was
    read, or the length of a body that is longer than what remains behind it. -/
theorem Inside.get_refused (h : r.Inside) (herror : (r.get t).1 = .error e) :
    (∃ cause, e = .malformed cause) ∨
      (∃ needed, e = .bufferUnderflow r.position needed r.remaining) ∧ (r.get t).2 = r ∨
      (∃ needed, e = .bufferUnderflow (r.position + 2) needed (r.remaining - 2)) ∧
        t.width? = none ∧ 2 ≤ r.remaining ∧ (r.get t).2 = r.advance 2 := by
  rw [get_eq] at herror ⊢
  have htaken := h.takeBody_taken t
  generalize r.takeBody t = taken at herror htaken ⊢
  cases htaken with
  | whole body count _ => exact .inl (exists_cause_of_read herror)
  | nothing needed _ =>
    cases herror
    exact .inr (.inl ⟨⟨needed, rfl⟩, rfl⟩)
  | length needed ht htwo _ =>
    cases herror
    exact .inr (.inr ⟨⟨needed, rfl⟩, ht, htwo, rfl⟩)

/-- An answer is never that bytes were asked of the buffer which are not there. -/
theorem Inside.isDefect_eq (h : r.Inside) (herror : (r.get t).1 = .error e) : e.isDefect = false := by
  rcases h.get_refused herror with ⟨_, rfl⟩ | ⟨⟨_, rfl⟩, -⟩ | ⟨⟨_, rfl⟩, -⟩ <;> rfl

theorem Inside.get_u16 (h : r.Inside) (htwo : 2 ≤ r.remaining) :
    ∃ length, r.get .u16 = (.ok (.u16 length), r.advance 2) := by
  rw [get_eq]
  show ∃ length, ((r.take 2).1.bind _, (r.take 2).2) = _
  rw [h.take_eq htwo]
  exact ⟨_, rfl⟩

end Answers

/-! ## No fault -/

theorem sumWithin_of_le {limit a b : Nat} (h : a + b ≤ limit) : sumWithin limit a b = .ok (a + b) :=
  if_pos h

theorem cutOut_of_room {bytes : Bytes} {first count : Nat} (h : first + count ≤ bytes.length) :
    cutOut bytes first (first + count) = .ok (bytes.slice first count) := by
  rw [cutOut, if_pos ⟨Nat.le_add_right first count, h⟩, Nat.add_sub_cancel_left]

section Within

variable {r : Reader} {limit : Nat}

/-- The only sums of a reader are the ends of what it reads, and these are in the buffer. -/
theorem Inside.takeWithin_eq (h : r.Inside) (hlimit : r.buffer.length ≤ limit) (needed : Nat) :
    r.takeWithin limit needed = .ok (r.take needed) := by
  unfold takeWithin
  by_cases hshort : r.remaining < needed
  · rw [if_pos hshort, take_of_short hshort]
  · have hfits := Nat.not_lt.mp hshort
    have hroom := h.room hfits
    rw [if_neg hshort, sumWithin_of_le (Nat.le_trans hroom hlimit), h.take_eq hfits]
    show (cutOut r.buffer r.position (r.position + needed)).bind _ = _
    rw [cutOut_of_room hroom]
    rfl

theorem Inside.takeArrayWithin_eq (h : r.Inside) (hlimit : r.buffer.length ≤ limit) (size : Nat) :
    r.takeArrayWithin limit size = .ok (r.take size) := by
  unfold takeArrayWithin
  rw [h.takeWithin_eq hlimit]
  by_cases hshort : r.remaining < size
  · rw [take_of_short hshort]
    rfl
  · have hfits := Nat.not_lt.mp hshort
    have hcopy : copyInto size (r.buffer.slice r.position size) = .ok (r.buffer.slice r.position size) :=
      if_pos (Bytes.length_slice (h.room hfits))
    rw [h.take_eq hfits]
    show (copyInto size (r.buffer.slice r.position size)).bind _ = _
    rw [hcopy]
    rfl

theorem Inside.takeBodyWithin_eq (h : r.Inside) (hlimit : r.buffer.length ≤ limit) (t : FieldType) :
    r.takeBodyWithin limit t = .ok (r.takeBody t) := by
  unfold takeBodyWithin takeBody
  cases t.width? with
  | some width => exact h.takeArrayWithin_eq hlimit width
  | none =>
    dsimp only
    unfold takePrefixed takeNat
    rw [h.takeArrayWithin_eq hlimit]
    by_cases hhead : r.remaining < 2
    · rw [take_of_short hhead]
      rfl
    · have htwo := Nat.not_lt.mp hhead
      rw [h.take_eq htwo]
      exact (h.advance htwo).takeWithin_eq hlimit _

/-- A reader in its buffer reads on a machine as it does with numbers of any size, as long as the
    length of the buffer fits in a word. -/
theorem Inside.getWithin_eq (h : r.Inside) (hlimit : r.buffer.length ≤ limit) (t : FieldType) :
    r.getWithin limit t = .ok (r.get t) := by
  unfold getWithin
  rw [h.takeBodyWithin_eq hlimit, get_eq]
  rfl

end Within

/-! ## Another buffer -/

/-- The reader with another buffer. -/
def inBuffer (r : Reader) (other : Bytes) : Reader := { r with buffer := other }

/-- Another buffer has the same bytes in what remains of the region of a reader. -/
structure Alike (r : Reader) (other : Bytes) : Prop where
  inside : (r.inBuffer other).Inside
  same : ∀ i, r.position ≤ i → i < r.stop → other[i]? = r.buffer[i]?

section Alike

variable {r : Reader} {other : Bytes}

theorem Alike.advance (ha : r.Alike other) {count : Nat} (hcount : count ≤ r.remaining) :
    (r.advance count).Alike other :=
  ⟨ha.inside.advance hcount, fun i hi => ha.same i (Nat.le_trans (Nat.le_add_right _ _) hi)⟩

theorem Inside.take_inBuffer (h : r.Inside) (ha : r.Alike other) (count : Nat) :
    (r.inBuffer other).take count = ((r.take count).1, (r.take count).2.inBuffer other) := by
  by_cases hshort : r.remaining < count
  · rw [take_of_short hshort, take_of_short (r := r.inBuffer other) hshort]
    rfl
  · have hfits := Nat.not_lt.mp hshort
    have hslice : other.slice r.position count = r.buffer.slice r.position count := by
      refine Bytes.slice_congr fun i hi hless => ha.same i hi ?_
      unfold remaining at hfits
      omega
    rw [h.take_eq hfits, ha.inside.take_eq hfits]
    exact Prod.ext (congrArg Except.ok hslice) rfl

theorem Inside.takeBody_inBuffer (h : r.Inside) (ha : r.Alike other) (t : FieldType) :
    (r.inBuffer other).takeBody t = ((r.takeBody t).1, (r.takeBody t).2.inBuffer other) := by
  unfold takeBody
  cases t.width? with
  | some width => exact h.take_inBuffer ha width
  | none =>
    dsimp only
    unfold takePrefixed takeNat
    rw [h.take_inBuffer ha]
    by_cases hhead : r.remaining < 2
    · rw [take_of_short hhead]
    · have htwo := Nat.not_lt.mp hhead
      rw [h.take_eq htwo]
      exact (h.advance htwo).take_inBuffer (ha.advance htwo) _

/-- A reader does not see what is around the rest of its region. -/
theorem Inside.get_inBuffer (h : r.Inside) (ha : r.Alike other) (t : FieldType) :
    (r.inBuffer other).get t = ((r.get t).1, (r.get t).2.inBuffer other) := by
  rw [get_eq, get_eq, h.takeBody_inBuffer ha]

end Alike

/-! ## Many steps -/

section Steps

variable {r : Reader} (types : List FieldType)

/-- However often a reader is asked, and whatever it refuses, it goes no further than its region. -/
theorem Inside.inTurn_advance (h : r.Inside) :
    ∃ count, count ≤ r.remaining ∧ (inTurn get r types).2 = r.advance count := by
  induction types generalizing r with
  | nil => exact ⟨0, Nat.zero_le _, (advance_zero r).symm⟩
  | cons t types ih =>
    obtain ⟨first, hfirst, hnext⟩ := h.get_advance t
    obtain ⟨more, hmore, hlast⟩ := ih (h.after_get t)
    rw [hnext, remaining_advance] at hmore
    refine ⟨first + more, by omega, ?_⟩
    rw [inTurn_cons, hlast, hnext, advance_advance]

theorem Inside.inTurn_inBuffer (h : r.Inside) {other : Bytes} (ha : r.Alike other) :
    inTurn get (r.inBuffer other) types =
      ((inTurn get r types).1, (inTurn get r types).2.inBuffer other) := by
  refine inTurn_view (fun r : Reader => r.inBuffer other) (fun r => r.Inside ∧ r.Alike other)
    (fun r t ⟨h, ha⟩ => h.get_inBuffer ha t) (fun r t ⟨h, ha⟩ => ?_) ⟨h, ha⟩ types
  obtain ⟨count, hcount, hnext⟩ := h.get_advance t
  rw [hnext]
  exact ⟨h.advance hcount, ha.advance hcount⟩

end Steps

/-- A reader that starts in its buffer stays in its region, empty or inverted as that may be, whatever
    values are asked of it and whichever are refused. After any of them it has not gone back, is not
    past the end, and what was read and what remains are the whole region together. Whatever is asked
    next, no sum is too large for a machine whose words hold the length of the buffer and no slice is
    out of range; the reader does not go back; and if bytes are missing it stays where it is, or has
    read just the length in front. Another buffer with the same bytes in the region gives the same
    answers at the same places. -/
theorem confined_to_region {buffer : Bytes} {offset : Nat} (hoffset : offset ≤ buffer.length)
    (stop : Nat) (types : List FieldType) :
    let last := min stop buffer.length
    let (answers, r) := inTurn get (ofRange buffer offset stop) types
    (offset ≤ r.position ∧ r.position ≤ max offset last ∧
      r.consumed + r.remaining = last - offset) ∧
    (∀ t, let (answer, next) := r.get t
      (∀ limit, buffer.length ≤ limit → r.getWithin limit t = .ok (answer, next)) ∧
      (∀ e, answer = .error e → e.isDefect = false) ∧
      r.position ≤ next.position ∧
      ∀ position needed available, answer = .error (.bufferUnderflow position needed available) →
        next = r ∨ t.width? = none ∧ next.position = r.position + 2 ∧
          ∃ length, r.get .u16 = (.ok (.u16 length), next)) ∧
    ∀ other stop', offset ≤ other.length → min stop' other.length = last →
      (∀ i, offset ≤ i → i < last → other[i]? = buffer[i]?) →
      inTurn get (ofRange other offset stop') types = (answers, { r with buffer := other }) := by
  intro last
  have hstart := inside_ofRange hoffset stop
  obtain ⟨count, hcount, hlast⟩ := hstart.inTurn_advance types
  have hinside : ((ofRange buffer offset stop).advance count).Inside := hstart.advance hcount
  have hremaining : (ofRange buffer offset stop).remaining = last - offset := rfl
  dsimp only
  refine ⟨?_, fun t => ?_, fun other stop' hother hstop hsame => ?_⟩
  · rw [hremaining] at hcount
    rw [hlast, remaining_advance, consumed_advance, hremaining]
    refine ⟨Nat.le_add_right _ _, ?_, by omega⟩
    show offset + count ≤ max offset last
    omega
  · rw [hlast]
    refine ⟨fun limit hlimit => hinside.getWithin_eq hlimit t, fun e => hinside.isDefect_eq, ?_,
      fun position needed available herror => ?_⟩
    · obtain ⟨more, -, hnext⟩ := hinside.get_advance t
      rw [hnext]
      exact Nat.le_add_right _ _
    · rcases hinside.get_refused herror with ⟨_, hcause⟩ | ⟨-, hsame⟩ | ⟨-, ht, htwo, hnext⟩
      · cases hcause
      · exact .inl hsame
      · rw [hnext]
        exact .inr ⟨ht, rfl, hinside.get_u16 htwo⟩
  · have halike : (ofRange buffer offset stop).Alike other := by
      refine ⟨⟨hother, ?_⟩, hsame⟩
      show last ≤ other.length
      omega
    have hregion : ofRange other offset stop' = (ofRange buffer offset stop).inBuffer other := by
      unfold ofRange
      rw [hstop]
      rfl
    rw [hregion, hstart.inTurn_inBuffer types halike]
    rfl

/-- A text that claims to be longer than its region is refused behind its length, and its bytes are
    read as something else. What is around the region does not matter. -/
theorem confined_after_overlong_text :
    let buffer : Bytes := [9, 0, 10, 104, 105, 7, 8]
    let other : Bytes := [1, 0, 10, 104, 105]
    let types : List FieldType := [.text, .raw 0, .u16, .u8]
    let (answers, r) := inTurn get (ofRange buffer 1 5) types
    (1 ≤ buffer.length ∧ 1 ≤ other.length ∧ min 100 other.length = min 5 buffer.length ∧
      ∀ i, 1 ≤ i → i < 5 → other[i]? = buffer[i]?) ∧
    answers = [.error (.bufferUnderflow 3 10 2), .ok (.raw []), .ok (.u16 26729),
      .error (.bufferUnderflow 5 1 0)] ∧
    r.consumed + r.remaining = 4 ∧
    inTurn get (ofRange other 1 100) types = (answers, { r with buffer := other }) := by
  intro buffer other types
  have hfour : ∀ i < 5, 1 ≤ i → other[i]? = buffer[i]? := by decide
  have hsame : ∀ i, 1 ≤ i → i < 5 → other[i]? = buffer[i]? := fun i hi hless => hfour i hless hi
  have hanswers : (inTurn get (ofRange buffer 1 5) types).1 =
      [.error (.bufferUnderflow 3 10 2), .ok (.raw []), .ok (.u16 26729),
        .error (.bufferUnderflow 5 1 0)] := by rfl
  have hconfined := confined_to_region (show 1 ≤ buffer.length by decide) 5 types
  rcases hrun : inTurn get (ofRange buffer 1 5) types with ⟨answers, r⟩
  rw [hrun] at hanswers hconfined
  obtain ⟨⟨-, -, hwhole⟩, -, hother⟩ := hconfined
  exact ⟨⟨by decide, by decide, by decide, hsame⟩, hanswers, hwhole,
    hother other 100 (by decide) (by decide) hsame⟩

end Reader
end ShardMesh.Wire
