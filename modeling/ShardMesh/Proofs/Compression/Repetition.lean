import ShardMesh.Compression.Repetition
import ShardMesh.Proofs.Compression.Segment

/-!
# Descriptions of data

Whatever the index suggests, the description that `segment` finds stands for the data, and its
copies are such as the rules admit. A copy is only taken after its bytes were compared, so nothing
has to be known about the index.
-/

namespace ShardMesh.Compression

/-- A segment at the end has to reach into what is before it. -/
theorem reachable_append {size : Nat} {segments : List Segment} {s : Segment} :
    reachable size (segments ++ [s]) = true ↔
      reachable size segments = true ∧ 0 < s.offset ∧ s.offset ≤
        segments.foldl (fun n s => n + s.literals.length + s.length) size + s.literals.length := by
  induction segments generalizing size with
  | nil => simp [reachable]
  | cons first segments ih =>
    simp only [List.cons_append, reachable, Bool.and_eq_true, ih, List.foldl_cons, and_assoc]

/-! ## Copies of compared bytes -/

theorem getD_extract_zero {data : Array UInt8} {stop i : Nat} (h : i < stop) :
    (data.extract 0 stop).getD i 0 = data.getD i 0 := by
  simp only [Array.getD_eq_getD_getElem?, Array.getElem?_extract, Nat.zero_add, Nat.sub_zero]
  split
  · rfl
  · rename_i hout
    have : data.size ≤ i := by omega
    rw [Array.getElem?_eq_none this]

/-- The next byte of the data is pushed onto the part before it. -/
theorem push_extract_zero {data : Array UInt8} {stop : Nat} (h : stop < data.size) :
    (data.extract 0 stop).push (data.getD stop 0) = data.extract 0 (stop + 1) := by
  rw [Array.extract_succ_right (by omega) h, Array.getD_eq_getD_getElem?,
    Array.getElem?_eq_getElem h, Option.getD_some]

/-- A copy of bytes that agree with those that follow makes these. -/
theorem copyBack_extract {data : Array UInt8} {offset stop length : Nat} (hpos : 0 < offset)
    (hoff : offset ≤ stop) (hlen : stop + length ≤ data.size)
    (hagree : ∀ i < length, data.getD (stop - offset + i) 0 = data.getD (stop + i) 0) :
    copyBack (data.extract 0 stop) offset length = data.extract 0 (stop + length) := by
  induction length generalizing stop with
  | zero => rfl
  | succ length ih =>
    have hsize : (data.extract 0 stop).size = stop := by
      rw [Array.size_extract, Nat.min_eq_left (by omega), Nat.sub_zero]
    have hnext := hagree 0 (Nat.succ_pos length)
    rw [Nat.add_zero, Nat.add_zero] at hnext
    rw [copyBack, hsize, getD_extract_zero (by omega), hnext, push_extract_zero (by omega),
      ih (by omega) (by omega)]
    · congr 1
      omega
    · intro i hi
      have h := hagree (i + 1) (by omega)
      rwa [show stop - offset + (i + 1) = stop + 1 - offset + i by omega,
        show stop + (i + 1) = stop + 1 + i by omega] at h

theorem agreement_le (data : Array UInt8) (earlier later limit : Nat) :
    agreement data earlier later limit ≤ limit := by
  induction limit generalizing earlier later with
  | zero => exact Nat.le_refl 0
  | succ limit ih =>
    unfold agreement
    split
    · exact Nat.succ_le_succ (ih ..)
    · exact Nat.zero_le _

theorem getD_of_lt_agreement {data : Array UInt8} {earlier later limit i : Nat}
    (h : i < agreement data earlier later limit) :
    data.getD (earlier + i) 0 = data.getD (later + i) 0 := by
  induction limit generalizing earlier later i with
  | zero => exact absurd h (Nat.not_lt_zero i)
  | succ limit ih =>
    unfold agreement at h
    split at h
    · rename_i hfirst
      cases i with
      | zero => exact hfirst
      | succ i =>
        have hrest := ih (Nat.lt_of_succ_lt_succ h)
        rwa [Nat.add_right_comm, Nat.add_right_comm later] at hrest
    · exact absurd h (Nat.not_lt_zero i)

theorem agreementBefore_le (data : Array UInt8) (earlier later limit : Nat) :
    agreementBefore data earlier later limit ≤ limit := by
  induction limit generalizing earlier later with
  | zero => exact Nat.le_refl 0
  | succ limit ih =>
    unfold agreementBefore
    split
    · exact Nat.succ_le_succ (ih ..)
    · exact Nat.zero_le _

/-- A copy that is taken starts before its place and not too far away, ends before the tail, is long
    enough, and was compared. -/
theorem copyLength_eq_succ {rules : CopyRules} {data : Array UInt8}
    {stop position candidate length : Nat}
    (h : copyLength rules data stop position candidate = length + 1) :
    candidate < position ∧ position - candidate ≤ rules.maxOffset ∧
      position + (length + 1) ≤ stop ∧ rules.minLength ≤ length + 1 ∧
      ∀ i < length + 1, data.getD (candidate + i) 0 = data.getD (position + i) 0 := by
  unfold copyLength at h
  split at h
  · rename_i hnear
    dsimp only at h
    split at h
    · cases h
    · rename_i hlong
      have hle := agreement_le data candidate position (stop - rules.tailLength - position)
      rw [h] at hle hlong
      refine ⟨hnear.1, hnear.2, by omega, by omega, fun i hi => ?_⟩
      exact getD_of_lt_agreement (h ▸ hi)
  · cases h

/-! ## Descriptions -/

/-- Segments that stand for the data up to a position, with copies that the rules admit. -/
structure Describes (rules : CopyRules) (data : Array UInt8) (stop : Nat)
    (segments : List Segment) : Prop where
  /-- What they stand for. -/
  expands : segments.foldl (fun out s => s.extend out) #[] = data.extract 0 stop
  /-- No copy starts before the beginning. -/
  reachable : reachable 0 segments = true
  /-- The copies are long enough and do not start too far away. -/
  admitted : ∀ s ∈ segments, rules.minLength ≤ s.length ∧ s.offset ≤ rules.maxOffset

theorem Describes.nil (rules : CopyRules) (data : Array UInt8) : Describes rules data 0 [] :=
  ⟨by simp, rfl, fun _ h => by cases h⟩

theorem extract_append_excerpt {data : Array UInt8} {start stop : Nat} (h : start ≤ stop) :
    (data.extract 0 start).appendList (excerpt data start stop) = data.extract 0 stop := by
  have hjoin : data.extract 0 start ++ data.extract start stop =
      data.extract (min 0 start) (max start stop) := Array.extract_append_extract
  rw [Nat.min_eq_left (Nat.zero_le start), Nat.max_eq_right h] at hjoin
  rw [← hjoin]
  apply Array.ext'
  rw [Array.appendList_eq_append, Array.toList_appendList, excerpt, Array.toList_append]

/-- A description goes on with literals up to a place, and a copy of compared bytes from there. -/
theorem Describes.push {rules : CopyRules} {data : Array UInt8} {pending start offset length : Nat}
    {segments : List Segment} (h : Describes rules data pending segments)
    (hstart : pending ≤ start) (hpos : 0 < offset) (hoff : offset ≤ start)
    (hmax : offset ≤ rules.maxOffset) (hmin : rules.minLength ≤ length)
    (hlen : start + length ≤ data.size)
    (hagree : ∀ i < length, data.getD (start - offset + i) 0 = data.getD (start + i) 0) :
    Describes rules data (start + length)
      (segments ++ [⟨excerpt data pending start, offset, length⟩]) := by
  have hsize : segments.foldl (fun n s => n + s.literals.length + s.length) 0 = pending := by
    rw [← Array.size_empty (α := UInt8), ← size_foldl_extend, h.expands, Array.size_extract]
    omega
  refine ⟨?_, ?_, fun s hs => ?_⟩
  · rw [List.foldl_append, h.expands, List.foldl_cons, List.foldl_nil, Segment.extend,
      extract_append_excerpt hstart, copyBack_extract hpos hoff hlen hagree]
  · rw [reachable_append, hsize]
    refine ⟨h.reachable, hpos, ?_⟩
    simp only [excerpt, Array.length_toList, Array.size_extract]
    omega
  · rcases List.mem_append.mp hs with hs | hs
    · exact h.admitted s hs
    · rw [List.mem_singleton.mp hs]
      exact ⟨hmin, hmax⟩

/-- The description from a position on completes the one that is there already: with literals from
    the last copy to the end. -/
theorem segmentFrom_describes (rules : CopyRules) {data : Array UInt8} {stop : Nat}
    (hstop : stop ≤ data.size) (pending position tries : Nat) (index : Index)
    (found : Array Segment) (h : Describes rules data pending found.toList)
    (hpending : pending ≤ stop) (hposition : pending ≤ position) :
    let d := (segmentFrom rules data stop pending position tries index found).1
    ∃ last ≤ stop, Describes rules data last d.segments ∧ d.tail = excerpt data last stop := by
  fun_induction segmentFrom rules data stop pending position tries index found with
  | case1 pending position tries index found hlead place candidate index' back start hmiss ih =>
    exact ih h hpending (by omega)
  | case2 pending position tries index found hlead place candidate index' back start length hcopy
      next index'' ih =>
    obtain ⟨hbefore, hmax, hend, hmin, hagree⟩ := copyLength_eq_succ hcopy
    have hback : back ≤ min candidate (position - pending) := by
      simp only [back]
      split
      · exact Nat.zero_le _
      · exact agreementBefore_le ..
    -- going back moves both ends of the copy by the same distance
    have hoffset : position - candidate = start - (candidate - back) := by omega
    have hsource : start - (position - candidate) = candidate - back := by omega
    refine ih ?_ hend (Nat.le_max_left ..)
    rw [Array.toList_push]
    refine h.push (by omega) (by omega) (by omega) (hoffset ▸ hmax) hmin (by omega) fun i hi => ?_
    rw [hsource]
    exact hagree i hi
  | case3 pending position tries index found hlead => exact ⟨pending, hpending, h, rfl⟩

/-- The description of a whole stands for the whole. -/
theorem segment_describes (rules : CopyRules) (data : Array UInt8) (index : Index) :
    let d := (segment rules data index 0 data.size).1
    d.expand = data.toList ∧ reachable 0 d.segments = true ∧
      ∀ s ∈ d.segments, rules.minLength ≤ s.length ∧ s.offset ≤ rules.maxOffset := by
  obtain ⟨last, hlast, hd, htail⟩ := segmentFrom_describes rules (Nat.le_refl data.size)
    0 (max 0 1) 0 index #[] (Describes.nil rules data) (Nat.zero_le _) (Nat.zero_le _)
  refine ⟨?_, hd.reachable, hd.admitted⟩
  unfold segment
  rw [Segmentation.expand, hd.expands, htail, extract_append_excerpt hlast, Array.extract_size]

end ShardMesh.Compression
