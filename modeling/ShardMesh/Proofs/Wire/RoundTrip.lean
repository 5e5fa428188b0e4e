import ShardMesh.Proofs.Wire.Reader
import ShardMesh.Proofs.Wire.Writer

/-!
# What is written is read back

A row of values that a writer puts is read back from the region that was written, and from no shorter
one. When a row is refused, a value is to blame: it is too long for its length to be written, or it
ends behind the buffer.
-/

namespace ShardMesh.Wire

/-- The first `m` bytes of what was written are a region of `m` bytes. -/
theorem Writer.remaining_extend {w : Writer} {bytes : Bytes} {m : Nat}
    (h : w.position + bytes.length ≤ w.buffer.length) (hm : m ≤ bytes.length) :
    (Reader.ofRange (w.extend bytes).buffer w.position (w.position + m)).remaining = m := by
  show min (w.position + m) (w.extend bytes).buffer.length - w.position = m
  rw [length_extend h]
  omega

/-- The region that bytes were written to holds the bytes. -/
theorem Writer.holds_extend {w : Writer} {bytes : Bytes}
    (h : w.position + bytes.length ≤ w.buffer.length) :
    (Reader.ofRange (w.extend bytes).buffer w.position (w.position + bytes.length)).Holds bytes :=
  ⟨Nat.le_of_eq (remaining_extend h (Nat.le_refl _)).symm, Bytes.standAt_overwrite h⟩

/-- What was written of a row of values is read back, from the whole of it and from no less. -/
theorem Writer.getAll_of_putAll {w : Writer} {values : List Value} (hvalues : ∀ v ∈ values, v.Writable)
    (h : values ≠ [] → w.position + (encodingOf values).length ≤ w.buffer.length) :
    let finished := w.extend (encodingOf values)
    let region := fun m => Reader.ofRange finished.buffer w.position (w.position + m)
    let n := (encodingOf values).length
    (region n).getAll (values.map Value.type) = (.ok values, (region n).advance n) ∧
      ((region n).advance n).remaining = 0 ∧
      ∀ m < n, ∃ position needed available, ((region m).getAll (values.map Value.type)).1 =
        .error (.bufferUnderflow position needed available) := by
  intro finished region n
  by_cases hnil : values = []
  · subst hnil
    refine ⟨rfl, ?_, fun m hm => absurd hm (Nat.not_lt_zero m)⟩
    show min (w.position + 0) _ - (w.position + 0) = 0
    omega
  · have hroom := h hnil
    refine ⟨?_, ?_, fun m hm => ?_⟩
    · exact Reader.getAll_eq_ok_iff.mpr ⟨rfl, hvalues, fun _ => holds_extend hroom, rfl⟩
    · rw [Reader.remaining_advance, remaining_extend hroom (Nat.le_refl _), Nat.sub_self]
    · refine Reader.getAll_of_short hvalues (Bytes.standAt_overwrite hroom) ?_
      rw [remaining_extend hroom (Nat.le_of_lt hm)]
      exact hm

/-- A row of values that is written into a buffer, from any offset on and whatever the buffer held, is
    read back from the bytes that were written: the same values, with nothing left. Any shorter region
    underflows. A row that is not empty is refused exactly if the length of one of its values cannot be
    written or there is no room for all of them, and the refusal is about the first value that was not
    written. -/
theorem written_reads_back (buffer : Bytes) (offset : Nat) (values : List Value) :
    let start := Writer.atOffset buffer offset
    let (result, finished) := start.putAll values
    let region := fun m => Reader.ofRange finished.buffer offset (offset + m)
    (result = .ok () →
      (∃ r, (region finished.written).getAll (values.map Value.type) = (.ok values, r) ∧
        r.consumed = finished.written ∧ r.remaining = 0) ∧
      ∀ m < finished.written, ∃ position needed available,
        ((region m).getAll (values.map Value.type)).1 =
          .error (.bufferUnderflow position needed available)) ∧
    (values ≠ [] →
      (result ≠ .ok () ↔
        (∃ v ∈ values, v.isPrefixed = true ∧ maxPrefixedLength < v.body.length) ∨
          buffer.length < offset + (encodingOf values).length)) ∧
    ∀ e, result = .error e → ∃ before v after, values = before ++ v :: after ∧
      (start.putAll before).1 = .ok () ∧ start.Refusal before v e := by
  intro start
  have hrefused (hvalues : values ≠ []) := start.putAll_refused_iff hvalues
  simp only [Value.not_writable_iff] at hrefused
  refine ⟨fun hok => ?_, hrefused, fun e he => ?_⟩
  · rcases start.putAll_cases values with ⟨hvalues, hroom, hput⟩ | ⟨_, _, _, e, _, _, _, he⟩
    · obtain ⟨hread, hleft, hshort⟩ := Writer.getAll_of_putAll hvalues hroom
      rw [hput, Writer.written_extend]
      exact ⟨⟨_, hread, Reader.consumed_advance .., hleft⟩, hshort⟩
    · rw [he] at hok
      cases hok
  · rcases start.putAll_cases values with ⟨_, _, hput⟩ | ⟨before, v, after, e', h, hput, hrefusal, he'⟩
    · rw [hput] at he
      cases he
    · rw [he'] at he
      cases he
      exact ⟨before, v, after, h, hput, hrefusal⟩

end ShardMesh.Wire
