import ShardMesh.Proofs.Compression.Counting

/-!
# Wanting less

How much is wanted decides how a stream is taken, and so which of its frames are decoded at once. Yet
it makes no difference to what comes: a reader who wants less gets the same data, unless there is more
of it than is wanted, and then nothing (`decompress_of_le`). As long as no more has come than is
wanted, the two readers take the same portions; and from then on it is enough that the one who wants
less counts the same bytes.
-/

namespace ShardMesh.Compression.Zstd

/-! ## The receiver -/

namespace Receiver

/-- The reader if only so many bytes were wanted. -/
def narrow (r : Receiver) (limit : Nat) : Receiver := { r with limit }

theorem close_narrow (r : Receiver) (limit : Nat) : (r.narrow limit).close = r.close.narrow limit := by
  by_cases hempty : r.portion = 0
  · have hempty' : (r.narrow limit).portion = 0 := hempty
    rw [close, close, if_pos hempty, if_pos hempty']
  · have hempty' : ¬ (r.narrow limit).portion = 0 := hempty
    rw [close, close, if_neg hempty, if_neg hempty']
    rfl

theorem taken_close (r : Receiver) : r.close.taken = r.total ∧ r.close.limit = r.limit := by
  unfold close total
  split
  · rename_i hempty
    exact ⟨by rw [hempty, Nat.add_zero], rfl⟩
  · exact ⟨rfl, rfl⟩

/-- As long as less comes than is wanted, only the buffer bounds a portion. -/
theorem room_of_lt {r : Receiver} {count : Nat} (h : r.taken + count ≤ r.limit) :
    min count r.room = min count r.span ∧ (r.room = 0 ↔ r.span = 0) := by
  unfold room
  omega

theorem drain_narrow {r : Receiver} {limit fuel count : Nat} (hless : limit ≤ r.limit)
    (h : r.taken + count ≤ limit) :
    drain fuel (r.narrow limit) count = (drain fuel r count).narrow limit := by
  induction fuel generalizing r count with
  | zero => rfl
  | succ fuel ih =>
    obtain ⟨hportion, hempty⟩ := room_of_lt (r := r) (Nat.le_trans h hless)
    obtain ⟨hportion', hempty'⟩ := room_of_lt (r := r.narrow limit) h
    have hspan : (r.narrow limit).span = r.span := rfl
    rw [hspan, ← hportion] at hportion'
    rw [hspan, ← hempty] at hempty'
    obtain ⟨htaken, hlimit⟩ := taken_close { r with portion := min count r.room }
    unfold drain
    by_cases hstop : count = 0 ∨ r.room = 0
    · rw [if_pos hstop, if_pos (hstop.imp_right hempty'.mpr)]
    · rw [if_neg hstop, if_neg (mt (Or.imp_right hempty'.mp) hstop), hportion']
      refine (congrArg (drain fuel · (count - min count r.room))
        (close_narrow { r with portion := min count r.room } limit)).trans (ih ?_ ?_)
      · rw [hlimit]
        exact hless
      · rw [htaken]
        simp only [total]
        omega

/-- The two readers take what comes in the same portions, if it is not more than is wanted. -/
theorem deliver_narrow {r : Receiver} {limit count : Nat} (hless : limit ≤ r.limit)
    (h : r.total + count ≤ limit) :
    (r.narrow limit).deliver count = (r.deliver count).narrow limit := by
  have hspan : (r.narrow limit).span = r.span := rfl
  unfold total at h
  unfold deliver
  dsimp only
  by_cases hfits : count ≤ r.span - r.portion
  · have hroom : count ≤ r.room - r.portion := by
      unfold room
      omega
    have hroom' : count ≤ (r.narrow limit).room - (r.narrow limit).portion := by
      change count ≤ min r.span (limit + 1 - r.taken) - r.portion
      omega
    rw [if_pos hroom, if_pos hroom']
    rfl
  · -- the buffer is what bounds this portion
    have hroom : r.room = r.span := by
      unfold room
      omega
    have hroom' : (r.narrow limit).room = r.span := by
      change min r.span (limit + 1 - r.taken) = r.span
      omega
    obtain ⟨htaken, hlimit⟩ := taken_close { r with portion := r.portion + (r.span - r.portion) }
    have hportion : (r.narrow limit).portion = r.portion := rfl
    rw [hroom, hroom', hportion, if_neg hfits, if_neg hfits]
    refine (congrArg (drain count · (count - (r.span - r.portion)))
      (close_narrow { r with portion := r.portion + (r.span - r.portion) } limit)).trans
        (drain_narrow ?_ ?_)
    · rw [hlimit]
      exact hless
    · rw [htaken]
      simp only [total]
      omega

end Receiver

/-! ## The course -/

namespace Course

/-- The course if only so many bytes were wanted. -/
def narrow (c : Course) (limit : Nat) : Course := { c with receiver := c.receiver.narrow limit }

theorem consume_narrow (c : Course) (limit count : Nat) :
    (c.narrow limit).consume count = (c.consume count).narrow limit := by
  unfold consume narrow
  dsimp only
  rw [Receiver.close_narrow]
  split <;> rfl

theorem pause_narrow (c : Course) (limit : Nat) : (c.narrow limit).pause = c.pause.narrow limit :=
  congrArg (Course.mk c.position) (c.receiver.close_narrow limit)

end Course

namespace Counts

variable {c : Course} {limit least size : Nat}

/-- What a reader has counted who wants less. -/
theorem narrow (hc : Counts c limit size) (hless : least ≤ limit) (hsize : size ≤ least) :
    Counts (c.narrow least) least size := by
  have htotal := hc.total
  have hportion := hc.sound.portion
  unfold Receiver.total at htotal
  refine ⟨⟨?_, ?_, hc.sound.free, hc.sound.most⟩, rfl, ?_⟩
  · have hroom : c.receiver.room ≤ c.receiver.span := Nat.min_le_left ..
    change c.receiver.portion ≤ min c.receiver.span (least + 1 - c.receiver.taken)
    omega
  · change c.receiver.taken ≤ least + 1
    omega
  · change c.receiver.taken + c.receiver.portion = _
    omega

theorem isOver_narrow (hc : Counts c limit size) (hless : least ≤ limit) (hsize : size ≤ least) :
    (c.narrow least).receiver.isOver = false :=
  Bool.eq_false_iff.mpr fun hover =>
    absurd ((hc.narrow hless hsize).isOver_iff.mp hover) (Nat.not_lt.mpr hsize)

theorem deliver_narrow (hc : Counts c limit size) (hless : least ≤ limit) {count : Nat}
    (hsize : size + count ≤ least) :
    (c.narrow least).deliver count = (c.deliver count).narrow least := by
  have htotal := hc.total
  have hlimit := hc.wanted
  exact congrArg (Course.mk c.position)
    (Receiver.deliver_narrow (by omega) (by omega))

theorem append_narrow {before old new : Nat} (hc : Counts c limit (before + old))
    (hless : least ≤ limit) (hle : old ≤ new) (hsize : before + new ≤ least) (count : Nat) :
    (((c.narrow least).consume count).deliver (new - old)).consume 1 =
      (((c.consume count).deliver (new - old)).consume 1).narrow least := by
  rw [Course.consume_narrow, (hc.consume count).deliver_narrow hless (by omega),
    Course.consume_narrow]

end Counts

/-! ## Blocks piece by piece -/

section Pieces

variable {h : Header} {ring : Ring} {limit least before : Nat} {s s' : State} {c c' : Course}

theorem size_le_of_takePiece {piece : Block} (htake : takePiece h ring s c piece = some (s', c')) :
    s.out.size ≤ s'.out.size := by
  unfold takePiece at htake
  split at htake
  · cases htake
    exact Nat.le_refl _
  · obtain ⟨next, hnext, htake⟩ := Option.bind_eq_some_iff.mp htake
    have hsize := size_le_of_decodePiece hnext
    cases htake
    rw [State.out_turned]
    exact hsize

/-- What comes of a piece does not depend on the course. -/
theorem exists_takePiece {piece : Block} (htake : takePiece h ring s c piece = some (s', c'))
    (d : Course) : ∃ d', takePiece h ring s d piece = some (s', d') := by
  unfold takePiece at htake ⊢
  split at htake
  · cases htake
    exact ⟨d, by rw [if_pos ‹_›]⟩
  · obtain ⟨next, hnext, htake⟩ := Option.bind_eq_some_iff.mp htake
    rw [if_neg ‹_›, takePieceAfter, hnext]
    cases htake
    exact ⟨_, rfl⟩

theorem takePiece_narrow {piece : Block} (hc : Counts c limit (before + s.out.size))
    (hless : least ≤ limit) (htake : takePiece h ring s c piece = some (s', c'))
    (hsize : before + s'.out.size ≤ least) :
    takePiece h ring s (c.narrow least) piece = some (s', c'.narrow least) := by
  unfold takePiece at htake ⊢
  split at htake
  · cases htake
    rw [if_pos ‹_›]
  · obtain ⟨next, hnext, htake⟩ := Option.bind_eq_some_iff.mp htake
    have hle := size_le_of_decodePiece hnext
    rw [if_neg ‹_›, takePieceAfter, hnext]
    cases htake
    rw [State.out_turned] at hsize
    have hnarrow := hc.append_narrow hless hle hsize (piece.inputSize - 1)
    simp only [Option.bind_eq_bind, Option.bind_some, hnarrow]
    rfl

theorem size_le_of_takePieces {block : Block}
    (htake : takePieces h ring s c block = some (s', c')) : s.out.size ≤ s'.out.size := by
  cases block with
  | plain content =>
    obtain ⟨⟨s1, c1⟩, hfirst, hsecond⟩ := Option.bind_eq_some_iff.mp htake
    exact Nat.le_trans (size_le_of_takePiece hfirst) (size_le_of_takePiece hsecond)
  | repeated count byte => exact size_le_of_takePiece htake
  | coded content => exact size_le_of_takePiece htake

/-- What comes of a block depends on how much of it is at hand, and else not on the course. -/
theorem exists_takePieces {block : Block} (htake : takePieces h ring s c block = some (s', c'))
    {d : Course} (hplace : d.atHand = c.atHand) :
    ∃ d', takePieces h ring s d block = some (s', d') := by
  cases block with
  | plain content =>
    obtain ⟨⟨s1, c1⟩, hfirst, hsecond⟩ := Option.bind_eq_some_iff.mp htake
    obtain ⟨d1, hfirst⟩ := exists_takePiece hfirst d
    obtain ⟨d', hsecond⟩ := exists_takePiece hsecond d1
    refine ⟨d', ?_⟩
    rw [takePieces, hplace, hfirst]
    exact hsecond
  | repeated count byte => exact exists_takePiece htake d
  | coded content => exact exists_takePiece htake d

theorem takePieces_narrow {block : Block} (hc : Counts c limit (before + s.out.size))
    (hless : least ≤ limit) (htake : takePieces h ring s c block = some (s', c'))
    (hsize : before + s'.out.size ≤ least) :
    takePieces h ring s (c.narrow least) block = some (s', c'.narrow least) := by
  cases block with
  | plain content =>
    obtain ⟨⟨s1, c1⟩, hfirst, hsecond⟩ := Option.bind_eq_some_iff.mp htake
    dsimp only at hsecond
    have hbetween := size_le_of_takePiece hsecond
    have hplace : (c.narrow least).atHand = c.atHand := rfl
    rw [takePieces, hplace, takePiece_narrow hc hless hfirst (by omega)]
    exact takePiece_narrow (hc.takePiece hfirst) hless hsecond hsize
  | repeated count byte => exact takePiece_narrow hc hless htake hsize
  | coded content => exact takePiece_narrow hc hless htake hsize

theorem size_le_of_readPieces {fuel : Nat} {bytes rest : Bytes} {data : Array UInt8}
    (hread : readPieces h ring fuel s c bytes = some (data, c', rest)) :
    s.out.size ≤ data.size := by
  induction fuel generalizing s c bytes with
  | zero => cases hread
  | succ fuel ih =>
    rw [readPieces] at hread
    obtain ⟨⟨block, last, more⟩, -, hread⟩ := Option.bind_eq_some_iff.mp hread
    dsimp only at hread
    split at hread
    · cases hread
    · obtain ⟨⟨s1, c1⟩, htake, hread⟩ := Option.bind_eq_some_iff.mp hread
      have hle := size_le_of_takePieces htake
      dsimp only at hread
      split at hread
      · cases hread
      · split at hread
        · split at hread
          · obtain ⟨after, -, hread⟩ := Option.bind_eq_some_iff.mp hread
            cases hread
            exact hle
          · cases hread
        · exact Nat.le_trans hle (ih hread)

/-- Blocks are decoded to the same data if less is wanted, unless there is more of it. -/
theorem readPieces_narrow {fuel : Nat} {bytes rest : Bytes} {data : Array UInt8}
    (hc : Counts c limit (before + s.out.size)) (hless : least ≤ limit)
    (hsize : before + s.out.size ≤ least)
    (hread : readPieces h ring fuel s c bytes = some (data, c', rest)) :
    readPieces h ring fuel s (c.narrow least) bytes =
      if before + data.size ≤ least then some (data, c'.narrow least, rest) else none := by
  induction fuel generalizing s c bytes with
  | zero => cases hread
  | succ fuel ih =>
    have hbefore := (hc.narrow hless hsize).consume blockHeaderSize
    rw [readPieces] at hread ⊢
    obtain ⟨⟨block, last, more⟩, hblock, hread⟩ := Option.bind_eq_some_iff.mp hread
    rw [hblock]
    dsimp only [Option.bind_eq_bind, Option.bind_some] at hread ⊢
    split at hread
    · cases hread
    · rename_i hfits
      rw [if_neg hfits]
      obtain ⟨⟨s1, c1⟩, htake, hread⟩ := Option.bind_eq_some_iff.mp hread
      have hc1 := (hc.consume blockHeaderSize).takePieces htake
      dsimp only at hread
      split at hread
      · cases hread
      · by_cases hmade : before + s1.out.size ≤ least
        · -- no more has come than is wanted: the course is the same
          rw [Course.consume_narrow,
            takePieces_narrow (hc.consume blockHeaderSize) hless htake hmade]
          dsimp only [Option.bind_some]
          rw [hc1.isOver_narrow hless hmade, if_neg Bool.false_ne_true]
          split at hread
          · split at hread
            · obtain ⟨after, hafter, hread⟩ := Option.bind_eq_some_iff.mp hread
              cases hread
              rw [if_pos ‹_›, if_pos ‹_›, hafter, if_pos hmade, Course.consume_narrow,
                Course.pause_narrow]
              rfl
            · cases hread
          · rw [if_neg ‹_›]
            exact ih hc1 hmade hread
        · -- more has come than is wanted, and is counted
          obtain ⟨d1, htake'⟩ := exists_takePieces htake
            (d := (c.narrow least).consume blockHeaderSize) rfl
          have hover := (hbefore.takePieces htake').isOver_iff.mpr (Nat.lt_of_not_le hmade)
          have hmore : ¬ before + data.size ≤ least := by
            split at hread
            · split at hread
              · obtain ⟨after, -, hread⟩ := Option.bind_eq_some_iff.mp hread
                cases hread
                exact hmade
              · cases hread
            · have hgrown := size_le_of_readPieces hread
              omega
          rw [htake', if_neg hmore]
          dsimp only [Option.bind_some]
          rw [hover, if_pos rfl]

end Pieces

/-! ## Frames of earlier versions -/

namespace Earlier

variable {h : Header} {ring : Ring} {limit least before : Nat} {s s' : State} {c c' : Course}

theorem size_le_of_takeContentAfter {size : Nat} {coded : Bool} {content : Bytes}
    (htake : takeContentAfter size h ring s c coded content = some (s', c')) :
    s.window.out.size ≤ s'.window.out.size := by
  obtain ⟨next, hnext, htake⟩ := Option.bind_eq_some_iff.mp htake
  have hsize := size_le_of_decodeContent hnext
  cases htake
  rw [State.out_turned]
  exact hsize

theorem exists_takeContentAfter {size : Nat} {coded : Bool} {content : Bytes}
    (htake : takeContentAfter size h ring s c coded content = some (s', c')) (d : Course) :
    ∃ d', takeContentAfter size h ring s d coded content = some (s', d') := by
  obtain ⟨next, hnext, htake⟩ := Option.bind_eq_some_iff.mp htake
  rw [takeContentAfter, hnext]
  cases htake
  exact ⟨_, rfl⟩

theorem takeContentAfter_narrow {coded : Bool} {content : Bytes}
    (hc : Counts c limit (before + s.window.out.size)) (hless : least ≤ limit)
    (htake : takeContentAfter s.window.out.size h ring s c coded content = some (s', c'))
    (hsize : before + s'.window.out.size ≤ least) :
    takeContentAfter s.window.out.size h ring s (c.narrow least) coded content =
      some (s', c'.narrow least) := by
  obtain ⟨next, hnext, htake⟩ := Option.bind_eq_some_iff.mp htake
  have hle := size_le_of_decodeContent hnext
  rw [takeContentAfter, hnext]
  cases htake
  rw [State.out_turned] at hsize
  have hnarrow := hc.append_narrow hless hle hsize (content.length - 1)
  simp only [Option.bind_eq_bind, Option.bind_some, hnarrow]
  rfl

theorem size_le_of_readBlocks {b : Buffers} {fuel : Nat} {bytes rest : Bytes} {data : Array UInt8}
    (hread : readBlocks h b fuel s c bytes = some (data, c', rest)) :
    s.window.out.size ≤ data.size := by
  induction fuel generalizing s c bytes with
  | zero => cases hread
  | succ fuel ih =>
    rw [readBlocks] at hread
    obtain ⟨⟨block, more⟩, -, hread⟩ := Option.bind_eq_some_iff.mp hread
    cases block with
    | ending checksum =>
      dsimp only at hread
      split at hread
      · cases hread
      · cases hread
        exact Nat.le_refl _
    | content coded content =>
      dsimp only at hread
      split at hread
      · cases hread
        exact Nat.le_refl _
      · split at hread
        · cases hread
        · obtain ⟨⟨s1, c1⟩, htake, hread⟩ := Option.bind_eq_some_iff.mp hread
          have hle := size_le_of_takeContentAfter htake
          dsimp only at hread
          split at hread
          · cases hread
          · exact Nat.le_trans hle (ih hread)

/-- The same for the blocks of earlier versions. -/
theorem readBlocks_narrow {b : Buffers} {fuel : Nat} {bytes rest : Bytes} {data : Array UInt8}
    (hc : Counts c limit (before + s.window.out.size)) (hless : least ≤ limit)
    (hsize : before + s.window.out.size ≤ least)
    (hread : readBlocks h b fuel s c bytes = some (data, c', rest)) :
    readBlocks h b fuel s (c.narrow least) bytes =
      if before + data.size ≤ least then some (data, c'.narrow least, rest) else none := by
  induction fuel generalizing s c bytes with
  | zero => cases hread
  | succ fuel ih =>
    have hbefore := (hc.narrow hless hsize).consume blockHeaderSize
    have hends : some (s.window.out, ((c.narrow least).consume blockHeaderSize).pause, rest) =
        if before + s.window.out.size ≤ least then
          some (s.window.out, (c.consume blockHeaderSize).pause.narrow least, rest)
        else none := by
      rw [if_pos hsize, Course.consume_narrow, Course.pause_narrow]
    rw [readBlocks] at hread ⊢
    obtain ⟨⟨block, more⟩, hblock, hread⟩ := Option.bind_eq_some_iff.mp hread
    rw [hblock]
    cases block with
    | ending checksum =>
      dsimp only [Option.bind_eq_bind, Option.bind_some] at hread ⊢
      split at hread
      · cases hread
      · rw [if_neg ‹_›]
        cases hread
        exact hends
    | content coded content =>
      have hplace : ((c.narrow least).consume blockHeaderSize).atHand =
          (c.consume blockHeaderSize).atHand := rfl
      dsimp only [Option.bind_eq_bind, Option.bind_some] at hread ⊢
      split at hread
      · rw [if_pos ‹_›]
        cases hread
        exact hends
      · split at hread
        · cases hread
        · obtain ⟨⟨s1, c1⟩, htake, hread⟩ := Option.bind_eq_some_iff.mp hread
          have hc1 := counts_takeContentAfter (hc.consume blockHeaderSize) htake
          dsimp only at hread
          rw [if_neg ‹_›, hplace, if_neg ‹_›]
          split at hread
          · cases hread
          · by_cases hmade : before + s1.window.out.size ≤ least
            · rw [Course.consume_narrow,
                takeContentAfter_narrow (hc.consume blockHeaderSize) hless htake hmade]
              dsimp only [Option.bind_some]
              rw [hc1.isOver_narrow hless hmade, if_neg Bool.false_ne_true]
              exact ih hc1 hmade hread
            · obtain ⟨d1, htake'⟩ :=
                exists_takeContentAfter htake ((c.narrow least).consume blockHeaderSize)
              have hover := (counts_takeContentAfter hbefore htake').isOver_iff.mpr
                (Nat.lt_of_not_le hmade)
              have hgrown := size_le_of_readBlocks hread
              have hmore : ¬ before + data.size ≤ least := by omega
              rw [htake', if_neg hmore]
              dsimp only [Option.bind_some]
              rw [hover, if_pos rfl]

end Earlier

/-! ## Blocks at once -/

section AtOnce

variable {h : Header} {room less : Nat}

/-- What sequences make is made with less space, too, if it fits. -/
theorem execute_of_le {limit least : Nat} {sequences : List Sequence} {literals : Bytes}
    {w next : Window} (h : execute limit sequences literals w = some next)
    (hfits : next.out.size - w.out.size ≤ least) : execute least sequences literals w = some next := by
  induction sequences generalizing limit least literals w with
  | nil =>
    have hsize := size_execute h
    rw [execute] at h ⊢
    split at h
    · cases h
    · rw [copied] at hsize
      rw [if_neg (by omega)]
      exact h
  | cons s sequences ih =>
    rw [execute] at h ⊢
    dsimp only at h ⊢
    split at h
    · cases h
    · rename_i hlong
      rw [not_or] at hlong
      split at h
      · cases h
      · rename_i hreach
        have hsize := size_execute h
        rw [Window.size_copy, Window.size_append, List.length_take] at hsize
        rw [List.length_take] at hlong
        rw [if_neg (by rw [not_or, List.length_take]; omega), if_neg hreach]
        refine ih h ?_
        rw [Window.size_copy, Window.size_append, List.length_take]
        omega

theorem decodeAtOnce_narrow {s s' : State} {block : Block} {space least : Nat}
    (hless : least ≤ space) (h' : decodeAtOnce h space s block = some s')
    (hfits : s'.out.size - s.out.size ≤ least) : decodeAtOnce h least s block = some s' := by
  have happend (bytes : Bytes) :
      (State.out { s with window := s.window.append bytes }).size - s.out.size = bytes.length := by
    change (s.window.append bytes).out.size - s.window.out.size = _
    rw [Window.size_append]
    omega
  cases block with
  | plain content =>
    rw [decodeAtOnce] at h' ⊢
    split at h'
    · cases h'
    · cases h'
      rw [happend] at hfits
      rw [if_neg (Nat.not_lt.mpr hfits)]
  | repeated count byte =>
    rw [decodeAtOnce] at h' ⊢
    split at h'
    · cases h'
    · cases h'
      rw [happend, List.length_replicate] at hfits
      rw [if_neg (Nat.not_lt.mpr hfits)]
  | coded content =>
    rw [decodeAtOnce] at h' ⊢
    split at h'
    · cases h'
    · rename_i hshort
      rw [if_neg hshort]
      obtain ⟨literals, code, rest, found, window, hliterals, hfew, hfound, hwindow, rfl⟩ :=
        decodeCoded_eq_some.mp h'
      refine decodeCoded_eq_some.mpr
        ⟨literals, code, rest, found, window, hliterals, hfew, hfound, ?_, rfl⟩
      -- with less space the literals may be kept elsewhere, where all of the space is free
      have hmade : window.out.size - s.window.out.size ≤ least := hfits
      dsimp only at hwindow ⊢
      generalize (content.head?.any fun b => decide (b.toNat % 4 = 0)) = plain at hwindow ⊢
      by_cases hapart : h.blockLimit + 2 * overshoot + literals.length < least
      · have hapart' : h.blockLimit + 2 * overshoot + literals.length < space := by omega
        simp only [hapart, hapart'] at hwindow ⊢
        split
        · rwa [if_pos ‹_›] at hwindow
        · exact execute_of_le hwindow hmade
      · simp only [hapart, decide_false, Bool.and_false, Bool.false_eq_true, if_false]
        exact execute_of_le hwindow hmade

theorem size_le_of_decodeAtOnce {s s' : State} {block : Block} {space : Nat}
    (h' : decodeAtOnce h space s block = some s') : s.out.size ≤ s'.out.size := by
  cases block with
  | plain content =>
    rw [decodeAtOnce] at h'
    split at h'
    · cases h'
    · cases h'
      exact s.window.size_le_append _
  | repeated count byte =>
    rw [decodeAtOnce] at h'
    split at h'
    · cases h'
    · cases h'
      exact s.window.size_le_append _
  | coded content =>
    rw [decodeAtOnce] at h'
    split at h'
    · cases h'
    · exact size_le_of_decodeCoded h'

/-- A frame that is decoded at once is as long as it announces. -/
theorem readAtOnce_spec {fuel : Nat} {s : State} {bytes rest : Bytes} {data : Array UInt8}
    (hread : readAtOnce h room fuel s bytes = some (data, rest)) :
    s.out.size ≤ data.size ∧ h.admits data.size = true := by
  induction fuel generalizing s bytes with
  | zero => cases hread
  | succ fuel ih =>
    rw [readAtOnce] at hread
    obtain ⟨⟨block, last, more⟩, -, hread⟩ := Option.bind_eq_some_iff.mp hread
    obtain ⟨s1, hdecode, hread⟩ := Option.bind_eq_some_iff.mp hread
    have hle := size_le_of_decodeAtOnce hdecode
    split at hread
    · split at hread
      · obtain ⟨after, -, hread⟩ := Option.bind_eq_some_iff.mp hread
        cases hread
        exact ⟨hle, ‹_›⟩
      · cases hread
    · obtain ⟨hrest, hadmits⟩ := ih hread
      exact ⟨Nat.le_trans hle hrest, hadmits⟩

theorem readAtOnce_narrow (hless : less ≤ room) {fuel : Nat} {s : State} {bytes rest : Bytes}
    {data : Array UInt8} (hread : readAtOnce h room fuel s bytes = some (data, rest))
    (hfits : data.size ≤ less) : readAtOnce h less fuel s bytes = some (data, rest) := by
  induction fuel generalizing s bytes with
  | zero => cases hread
  | succ fuel ih =>
    rw [readAtOnce] at hread ⊢
    obtain ⟨⟨block, last, more⟩, hblock, hread⟩ := Option.bind_eq_some_iff.mp hread
    obtain ⟨s1, hdecode, hread⟩ := Option.bind_eq_some_iff.mp hread
    have hmade : s1.out.size ≤ data.size := by
      split at hread
      · split at hread
        · obtain ⟨after, -, hread⟩ := Option.bind_eq_some_iff.mp hread
          cases hread
          exact Nat.le_refl _
        · cases hread
      · exact (readAtOnce_spec hread).1
    have hdecode' : decodeAtOnce h (less - s.out.size) s block = some s1 :=
      decodeAtOnce_narrow (by omega) hdecode (by omega)
    rw [hblock]
    dsimp only [Option.bind_eq_bind, Option.bind_some] at hread ⊢
    rw [hdecode']
    dsimp only [Option.bind_some]
    split at hread
    · rw [if_pos ‹_›]
      exact hread
    · rw [if_neg ‹_›]
      exact ih hread

end AtOnce

/-! ## At once or piece by piece -/

/-- Two decoders have made as many bytes, and use the same codes and tables from here on. -/
structure State.InStep (s t : State) : Prop where
  code : t.code = s.code
  tables : t.tables = s.tables
  recent : t.recent = s.recent
  size : t.out.size = s.out.size

namespace State.InStep

variable {s t s' t' : State}

theorem turnedUnless (h : InStep s t) (ring : Ring) (stays : Prop) [Decidable stays] :
    InStep s (if stays then t else { t with window := ring.turn t.window }) := by
  split
  · exact h
  · refine ⟨h.code, h.tables, h.recent, ?_⟩
    change (ring.turn t.window).out.size = _
    rw [Ring.out_turn]
    exact h.size

theorem append (h : InStep s t) (bytes : Bytes) :
    InStep { s with window := s.window.append bytes }
      { t with window := t.window.append bytes } := by
  have hsize := h.size
  refine ⟨h.code, h.tables, h.recent, ?_⟩
  change (t.window.append bytes).out.size = (s.window.append bytes).out.size
  rw [Window.size_append, Window.size_append]
  exact congrArg (· + bytes.length) hsize

theorem decodeCoded (h : InStep s t) {most most' : Nat} {limit limit' : Nat → Nat → Nat}
    {content : Bytes} (hs : Zstd.decodeCoded most limit s content = some s')
    (ht : Zstd.decodeCoded most' limit' t content = some t') : InStep s' t' := by
  obtain ⟨literals, code, rest, found, window, hliterals, -, hfound, hwindow, rfl⟩ :=
    decodeCoded_eq_some.mp hs
  obtain ⟨literals', code', rest', found', window', hliterals', -, hfound', hwindow', rfl⟩ :=
    decodeCoded_eq_some.mp ht
  rw [h.code, hliterals] at hliterals'
  cases hliterals'
  rw [h.tables, h.recent, hfound] at hfound'
  cases hfound'
  refine ⟨rfl, rfl, rfl, ?_⟩
  have hsize := h.size
  change window'.out.size = window.out.size
  change t.window.out.size = s.window.out.size at hsize
  rw [size_execute hwindow, size_execute hwindow', hsize]

variable {h : Header} {ring : Ring} {c c' : Course}

/-- A piece of a plain block appends its bytes. -/
theorem takePiece_plain (hst : InStep s t) {content : Bytes}
    (htake : takePiece h ring t c (.plain content) = some (t', c')) :
    InStep { s with window := s.window.append content } t' := by
  unfold takePiece at htake
  split at htake
  · rename_i hempty
    obtain rfl : content = [] := List.length_eq_zero_iff.mp hempty
    cases htake
    refine ⟨hst.code, hst.tables, hst.recent, ?_⟩
    change _ = (s.window.append []).out.size
    rw [Window.size_append]
    exact hst.size
  · obtain ⟨next, hnext, htake⟩ := Option.bind_eq_some_iff.mp htake
    rw [decodePiece] at hnext
    split at hnext
    · cases hnext
    · cases hnext
      cases htake
      exact (hst.append content).turnedUnless ring _

/-- A block makes as much at once as piece by piece. -/
theorem takePieces (hst : InStep s t) {space : Nat} {block : Block}
    (hs : decodeAtOnce h space s block = some s')
    (ht : Zstd.takePieces h ring t c block = some (t', c')) : InStep s' t' := by
  cases block with
  | plain content =>
    obtain ⟨⟨t1, c1⟩, hfirst, hsecond⟩ := Option.bind_eq_some_iff.mp ht
    have hparts := (hst.takePiece_plain hfirst).takePiece_plain hsecond
    rw [decodeAtOnce] at hs
    split at hs
    · cases hs
    · cases hs
      refine ⟨hparts.code, hparts.tables, hparts.recent, hparts.size.trans ?_⟩
      change ((s.window.append _).append _).out.size = (s.window.append content).out.size
      rw [Window.size_append, Window.size_append, Window.size_append, Nat.add_assoc,
        ← List.length_append, List.take_append_drop]
  | repeated count byte =>
    obtain ⟨next, hnext, ht⟩ := Option.bind_eq_some_iff.mp ht
    rw [decodePiece] at hnext
    rw [decodeAtOnce] at hs
    split at hnext
    · cases hnext
    · split at hs
      · cases hs
      · cases hnext
        cases hs
        cases ht
        exact (hst.append (List.replicate count byte)).turnedUnless ring _
  | coded content =>
    rw [decodeAtOnce] at hs
    split at hs
    · cases hs
    · unfold Zstd.takePieces takePiece at ht
      dsimp only at ht
      split at ht
      · -- an empty block is not looked into, but it cannot be decoded
        rename_i hempty
        obtain rfl : content = [] := List.length_eq_zero_iff.mp hempty
        cases hs
      · obtain ⟨next, hnext, ht⟩ := Option.bind_eq_some_iff.mp ht
        rw [decodePiece] at hnext
        cases ht
        exact (hst.decodeCoded hs hnext).turnedUnless ring _

/-- A frame makes as much at once as piece by piece. -/
theorem size_eq (hst : InStep s t) {room fuel : Nat} {bytes rest rest' : Bytes}
    {data data' : Array UInt8} (hs : readAtOnce h room fuel s bytes = some (data, rest))
    (ht : readPieces h ring fuel t c bytes = some (data', c', rest')) : data'.size = data.size := by
  induction fuel generalizing s t c bytes with
  | zero => cases hs
  | succ fuel ih =>
    rw [readAtOnce] at hs
    rw [readPieces] at ht
    obtain ⟨⟨block, last, more⟩, hblock, hs⟩ := Option.bind_eq_some_iff.mp hs
    rw [hblock] at ht
    obtain ⟨s1, hdecode, hs⟩ := Option.bind_eq_some_iff.mp hs
    dsimp only [Option.bind_eq_bind, Option.bind_some] at ht
    split at ht
    · cases ht
    · obtain ⟨⟨t1, c1⟩, htake, ht⟩ := Option.bind_eq_some_iff.mp ht
      have hnext := hst.takePieces hdecode htake
      dsimp only at ht
      split at ht
      · cases ht
      · split at ht
        · rw [if_pos ‹_›] at hs
          split at ht
          · split at hs
            · obtain ⟨after, -, ht⟩ := Option.bind_eq_some_iff.mp ht
              obtain ⟨after', -, hs⟩ := Option.bind_eq_some_iff.mp hs
              cases ht
              cases hs
              exact hnext.size
            · cases hs
          · cases ht
        · rw [if_neg ‹_›] at hs
          exact ih hnext hs ht

end State.InStep

/-! ## Frames -/

namespace Stream

variable {limit least : Nat}

/-- The stream if only so many bytes were wanted. -/
def narrow (s : Stream) (limit : Nat) : Stream := { s with course := s.course.narrow limit }

/-- A frame that is decoded at once announces its length, for which there is room. -/
theorem atOnce?_eq_some {s : Stream} {h : Header} {fuel size : Nat} {rest : Bytes} :
    s.atOnce? h fuel rest = some size ↔ ∃ count blocks, h.contentSize = some count ∧
      count ≤ s.course.receiver.room ∧ blocksSize fuel rest = some blocks ∧
      size = h.size + blocks + h.checksumSize ∧ size ≤ s.course.atHand := by
  unfold atOnce?
  constructor
  · intro hat
    obtain ⟨count, hcount, hat⟩ := Option.bind_eq_some_iff.mp hat
    split at hat
    · obtain ⟨blocks, hblocks, hat⟩ := Option.bind_eq_some_iff.mp hat
      dsimp only at hat
      split at hat
      · cases hat
        exact ⟨count, blocks, hcount, ‹_›, hblocks, rfl, ‹_›⟩
      · cases hat
    · cases hat
  · rintro ⟨count, blocks, hcount, hroom, hblocks, rfl, hhand⟩
    simp only [hcount, hblocks, Option.bind_eq_bind, Option.bind_some, if_pos hroom, if_pos hhand]

theorem room_narrow_le {s : Stream} (hless : least ≤ s.course.receiver.limit) :
    (s.narrow least).course.receiver.room ≤ s.course.receiver.room := by
  change min s.course.receiver.span (least + 1 - s.course.receiver.taken) ≤
    min s.course.receiver.span (s.course.receiver.limit + 1 - s.course.receiver.taken)
  omega

section Frame

variable {s s' : Stream} {h : Header} {fuel size count : Nat} {bytes after rest : Bytes}

/-- If a frame is decoded at once by a reader who wants less, it is decoded at once, too. -/
theorem atOnce?_of_narrow (hless : least ≤ s.course.receiver.limit)
    (hat : (s.narrow least).atOnce? h fuel rest = some size) :
    s.atOnce? h fuel rest = some size := by
  obtain ⟨count, blocks, hcount, hroom, hblocks, hsize, hhand⟩ := atOnce?_eq_some.mp hat
  exact atOnce?_eq_some.mpr
    ⟨count, blocks, hcount, Nat.le_trans hroom (room_narrow_le hless), hblocks, hsize, hhand⟩

/-- If a frame is decoded at once and is not more than is wanted, there is room for it. -/
theorem atOnce?_narrow (hs : Counts s.course limit s.out.size)
    (hat : s.atOnce? h fuel rest = some size) (hcount : h.contentSize = some count)
    (hfits : s.out.size + count ≤ least) :
    count ≤ (s.narrow least).course.receiver.room ∧
      (s.narrow least).atOnce? h fuel rest = some size := by
  obtain ⟨count', blocks, hcount', hroom, hblocks, hsize, hhand⟩ := atOnce?_eq_some.mp hat
  obtain rfl : count' = count := Option.some.inj (hcount'.symm.trans hcount)
  have hroom' : count' ≤ (s.narrow least).course.receiver.room := by
    have htotal := hs.total
    have hspan : s.course.receiver.room ≤ s.course.receiver.span := Nat.min_le_left ..
    unfold Receiver.total at htotal
    change count' ≤ min s.course.receiver.span (least + 1 - s.course.receiver.taken)
    omega
  exact ⟨hroom', atOnce?_eq_some.mpr ⟨count', blocks, hcount, hroom', hblocks, hsize, hhand⟩⟩

/-- A frame that could be decoded at once makes as much, however it is decoded. -/
theorem size_eq_of_readFrame {room : Nat} {data : Array UInt8} {others : Bytes}
    (hheader : readHeader bytes = some (h, after)) (hcount : h.contentSize = some count)
    (hblocks : readAtOnce h room fuel {} after = some (data, others))
    (hread : s.readFrame fuel bytes = some (s', rest)) :
    s'.out.size = s.out.size + data.size := by
  unfold readFrame at hread
  rw [hheader] at hread
  dsimp only [Option.bind_eq_bind, Option.bind_some] at hread
  split at hread
  · obtain ⟨⟨data', more⟩, hblocks', hread⟩ := Option.bind_eq_some_iff.mp hread
    have hadmits := (readAtOnce_spec hblocks).2
    have hadmits' := (readAtOnce_spec hblocks').2
    have hsame : data'.size = data.size := by
      rw [Header.admits, hcount] at hadmits hadmits'
      exact (beq_iff_eq.mp hadmits').symm.trans (beq_iff_eq.mp hadmits)
    cases hread
    rw [Array.size_append, hsame]
  · split at hread
    · cases hread
    · obtain ⟨⟨data', course', more⟩, hblocks', hread⟩ := Option.bind_eq_some_iff.mp hread
      have hsame := State.InStep.size_eq ⟨rfl, rfl, rfl, rfl⟩ hblocks hblocks'
      cases hread
      rw [Array.size_append, hsame]

/-- What a reader who wants less takes off where another one takes a frame off: the same, or, if the
    frame makes more than is wanted, nothing or more than is wanted. -/
structure Narrows (limit least : Nat) (s' : Stream) (rest : Bytes) (taken : Option (Stream × Bytes)) :
    Prop where
  counts : Counts s'.course limit s'.out.size
  counted : ∀ {next more}, taken = some (next, more) → Counts next.course least next.out.size
  same : s'.out.size ≤ least → taken = some (s'.narrow least, rest)
  longer : least < s'.out.size → ∀ {next more}, taken = some (next, more) → least < next.out.size

theorem Narrows.of_eq_ite {taken : Option (Stream × Bytes)} (hless : least ≤ limit)
    (hcounts : Counts s'.course limit s'.out.size)
    (htaken : taken = if s'.out.size ≤ least then some (s'.narrow least, rest) else none) :
    Narrows limit least s' rest taken := by
  subst htaken
  by_cases hfits : s'.out.size ≤ least
  · rw [if_pos hfits]
    refine ⟨hcounts, fun hnext => ?_, fun _ => rfl, fun hmuch => absurd hfits (Nat.not_le.mpr hmuch)⟩
    cases hnext
    exact hcounts.narrow hless hfits
  · rw [if_neg hfits]
    exact ⟨hcounts, nofun, fun hfits' => absurd hfits' hfits, fun _ => nofun⟩

theorem readFrame_narrow (hs : Counts s.course limit s.out.size) (hless : least ≤ limit)
    (hsize : s.out.size ≤ least) (hread : s.readFrame fuel bytes = some (s', rest)) :
    Narrows limit least s' rest ((s.narrow least).readFrame fuel bytes) := by
  have hlimit := hs.wanted
  have hbefore : Counts (s.narrow least).course least (s.narrow least).out.size :=
    hs.narrow hless hsize
  have hcounts := counts_readFrame hs hread
  have hread' := hread
  unfold readFrame at hread'
  obtain ⟨⟨h, after⟩, hheader, hread'⟩ := Option.bind_eq_some_iff.mp hread'
  dsimp only at hread'
  cases hat : s.atOnce? h fuel after with
  | some size =>
    rw [hat] at hread'
    obtain ⟨⟨data, more⟩, hblocks, hread'⟩ := Option.bind_eq_some_iff.mp hread'
    obtain ⟨count, -, hcount, -⟩ := atOnce?_eq_some.mp hat
    have hmade := size_eq_of_readFrame hheader hcount hblocks hread
    have hannounced : count = data.size := by
      have hadmits := (readAtOnce_spec hblocks).2
      rw [Header.admits, hcount] at hadmits
      exact beq_iff_eq.mp hadmits
    subst hannounced
    refine ⟨hcounts, counts_readFrame hbefore, fun hfits => ?_, fun hmuch {next more} hnext => ?_⟩
    · -- there is room for the frame, so it is decoded at once
      rw [hmade] at hfits
      obtain ⟨hroom, hat'⟩ := atOnce?_narrow hs hat hcount hfits
      have hblocks' := readAtOnce_narrow (room_narrow_le (by omega)) hblocks hroom
      have hcourse : (((s.narrow least).course.deliver data.size).consume size).pause =
          ((s.course.deliver data.size).consume size).pause.narrow least := by
        change (((s.course.narrow least).deliver data.size).consume size).pause = _
        rw [hs.deliver_narrow hless hfits, Course.consume_narrow, Course.pause_narrow]
      cases hread'
      unfold readFrame
      rw [hheader]
      dsimp only [Option.bind_eq_bind, Option.bind_some]
      rw [hat']
      dsimp only
      rw [hblocks', Option.bind_some, hcourse]
      rfl
    · rw [size_eq_of_readFrame hheader hcount hblocks hnext]
      rwa [hmade] at hmuch
  | none =>
    have hat' : (s.narrow least).atOnce? h fuel after = none :=
      Option.eq_none_iff_forall_ne_some.mpr fun size hsome => by
        rw [atOnce?_of_narrow (by omega) hsome] at hat
        cases hat
    rw [hat] at hread'
    refine .of_eq_ite hless hcounts ?_
    unfold readFrame
    rw [hheader]
    dsimp only [Option.bind_eq_bind, Option.bind_some] at hread' ⊢
    rw [hat']
    dsimp only
    split at hread'
    · cases hread'
    · rw [if_neg ‹_›]
      obtain ⟨⟨data, course, more⟩, hblocks, hread'⟩ := Option.bind_eq_some_iff.mp hread'
      have hnarrow := readPieces_narrow (hs.consume h.size) hless hsize hblocks
      rw [← Course.consume_narrow, Array.length_toList] at hnarrow
      have hbuffers : (s.narrow least).buffers = s.buffers := rfl
      cases hread'
      dsimp only
      rw [hbuffers, Array.size_append]
      refine (congrArg (Option.bind · _) hnarrow).trans ?_
      by_cases hfits : s.out.size + data.size ≤ least
      · rw [if_pos hfits, if_pos hfits]
        rfl
      · rw [if_neg hfits, if_neg hfits]
        rfl

theorem readEarlier_narrow {version : Earlier.Version} (hs : Counts s.course limit s.out.size)
    (hless : least ≤ limit) (hsize : s.out.size ≤ least)
    (hread : s.readEarlier version fuel bytes = some (s', rest)) :
    Narrows limit least s' rest ((s.narrow least).readEarlier version fuel bytes) := by
  refine .of_eq_ite hless (counts_readEarlier hs hread) ?_
  unfold readEarlier at hread ⊢
  obtain ⟨⟨h, after⟩, hheader, hread⟩ := Option.bind_eq_some_iff.mp hread
  have hplace : (s.narrow least).course.atHand = s.course.atHand := rfl
  rw [hheader, hplace]
  dsimp only [Option.bind_eq_bind, Option.bind_some] at hread ⊢
  split at hread
  · cases hread
  · rw [if_neg ‹_›]
    obtain ⟨⟨data, course, more⟩, hblocks, hread⟩ := Option.bind_eq_some_iff.mp hread
    have hnarrow := Earlier.readBlocks_narrow (hs.consume h.size) hless hsize hblocks
    rw [← Course.consume_narrow, Array.length_toList] at hnarrow
    have hearlier : (s.narrow least).earlier = s.earlier := rfl
    cases hread
    dsimp only
    rw [hearlier, Array.size_append]
    refine (congrArg (Option.bind · _) hnarrow).trans ?_
    by_cases hfits : s.out.size + data.size ≤ least
    · rw [if_pos hfits, if_pos hfits]
      rfl
    · rw [if_neg hfits, if_neg hfits]
      rfl

theorem size_le_of_readFrame (hread : s.readFrame fuel bytes = some (s', rest)) :
    s.out.size ≤ s'.out.size := by
  unfold readFrame at hread
  obtain ⟨⟨h, after⟩, -, hread⟩ := Option.bind_eq_some_iff.mp hread
  dsimp only at hread
  split at hread
  · obtain ⟨⟨data, more⟩, -, hread⟩ := Option.bind_eq_some_iff.mp hread
    cases hread
    exact Nat.le_trans (Nat.le_add_right ..) (Nat.le_of_eq Array.size_append.symm)
  · split at hread
    · cases hread
    · obtain ⟨⟨data, course, more⟩, -, hread⟩ := Option.bind_eq_some_iff.mp hread
      cases hread
      exact Nat.le_trans (Nat.le_add_right ..) (Nat.le_of_eq Array.size_append.symm)

theorem size_le_of_readEarlier {version : Earlier.Version}
    (hread : s.readEarlier version fuel bytes = some (s', rest)) : s.out.size ≤ s'.out.size := by
  unfold readEarlier at hread
  obtain ⟨⟨h, after⟩, -, hread⟩ := Option.bind_eq_some_iff.mp hread
  dsimp only at hread
  split at hread
  · cases hread
  · obtain ⟨⟨data, course, more⟩, -, hread⟩ := Option.bind_eq_some_iff.mp hread
    cases hread
    exact Nat.le_trans (Nat.le_add_right ..) (Nat.le_of_eq Array.size_append.symm)

/-- Frames add to the data of those before them. -/
theorem size_le_out_of_readFrames (hread : readFrames fuel s bytes = some s') :
    s.out.size ≤ s'.out.size := by
  induction fuel generalizing s bytes with
  | zero => cases hread
  | succ fuel ih =>
    rw [readFrames] at hread
    split at hread
    · cases hread
      exact Nat.le_refl _
    · obtain ⟨⟨number, rest⟩, -, hread⟩ := Option.bind_eq_some_iff.mp hread
      dsimp only at hread
      split at hread
      · obtain ⟨⟨size, rest⟩, -, hread⟩ := Option.bind_eq_some_iff.mp hread
        dsimp only at hread
        split at hread
        · cases hread
        · have hmore := ih hread
          exact hmore
      · split at hread
        · obtain ⟨⟨next, rest⟩, hframe, hread⟩ := Option.bind_eq_some_iff.mp hread
          dsimp only at hread
          split at hread
          · cases hread
          · exact Nat.le_trans (size_le_of_readFrame hframe) (ih hread)
        · obtain ⟨version, -, hread⟩ := Option.bind_eq_some_iff.mp hread
          obtain ⟨⟨next, rest⟩, hframe, hread⟩ := Option.bind_eq_some_iff.mp hread
          dsimp only at hread
          split at hread
          · cases hread
          · exact Nat.le_trans (size_le_of_readEarlier hframe) (ih hread)

/-- Behind a frame either reader goes on, unless one knows that more came than is wanted. -/
theorem Narrows.goOn {taken : Option (Stream × Bytes)} {found : Stream}
    (h : Narrows limit least s' rest taken) (hless : least ≤ limit)
    (hread : (if s'.course.receiver.isOver then none else readFrames fuel s' rest) = some found)
    (hmore : s'.out.size ≤ least → readFrames fuel s' rest = some found →
      readFrames fuel (s'.narrow least) rest =
        if found.out.size ≤ least then some (found.narrow least) else none) :
    (taken.bind fun x => if x.1.course.receiver.isOver then none else readFrames fuel x.1 x.2) =
      if found.out.size ≤ least then some (found.narrow least) else none := by
  split at hread
  · cases hread
  · by_cases hfits : s'.out.size ≤ least
    · have hunder : (s'.narrow least).course.receiver.isOver = false :=
        h.counts.isOver_narrow hless hfits
      rw [h.same hfits, Option.bind_some, hunder, if_neg Bool.false_ne_true]
      exact hmore hfits hread
    · have hmuch := Nat.lt_of_not_le hfits
      have hgrown := size_le_out_of_readFrames hread
      rw [if_neg (by omega)]
      cases htaken : taken with
      | none => rfl
      | some x =>
        rw [Option.bind_some, (h.counted htaken).isOver_iff.mpr (h.longer hmuch htaken), if_pos rfl]

/-- A reader who wants less gets the data of all frames, unless there is more of it. -/
theorem readFrames_narrow (hs : Counts s.course limit s.out.size) (hless : least ≤ limit)
    (hsize : s.out.size ≤ least) (hread : readFrames fuel s bytes = some s') :
    readFrames fuel (s.narrow least) bytes =
      if s'.out.size ≤ least then some (s'.narrow least) else none := by
  induction fuel generalizing s bytes with
  | zero => cases hread
  | succ fuel ih =>
    rw [readFrames] at hread ⊢
    split at hread
    · cases hread
      rw [if_pos ‹_›, if_pos hsize]
    · rw [if_neg ‹_›]
      obtain ⟨⟨number, rest⟩, hnumber, hread⟩ := Option.bind_eq_some_iff.mp hread
      rw [hnumber]
      dsimp only [Option.bind_eq_bind, Option.bind_some] at hread ⊢
      split at hread
      · -- a frame to skip is only consumed
        rw [if_pos ‹_›]
        obtain ⟨⟨size, rest⟩, hskipped, hread⟩ := Option.bind_eq_some_iff.mp hread
        rw [hskipped]
        dsimp only [Option.bind_some] at hread ⊢
        split at hread
        · cases hread
        · rw [if_neg ‹_›]
          have hskip : (s.narrow least).course.consume (8 + size) =
              (s.course.consume (8 + size)).narrow least := s.course.consume_narrow least _
          rw [hskip]
          refine ih ?_ ?_ hread
          · exact hs.consume (8 + size)
          · exact hsize
      · rw [if_neg ‹_›]
        split at hread
        · rw [if_pos ‹_›]
          obtain ⟨⟨next, rest⟩, hframe, hread⟩ := Option.bind_eq_some_iff.mp hread
          have hnarrow := readFrame_narrow hs hless hsize hframe
          exact hnarrow.goOn hless hread (ih hnarrow.counts)
        · rw [if_neg ‹_›]
          obtain ⟨version, hversion, hread⟩ := Option.bind_eq_some_iff.mp hread
          obtain ⟨⟨next, rest⟩, hframe, hread⟩ := Option.bind_eq_some_iff.mp hread
          rw [hversion]
          have hnarrow := readEarlier_narrow hs hless hsize hframe
          exact hnarrow.goOn hless hread (ih hnarrow.counts)

end Frame

end Stream

/-- A reader who wants less gets the same data, unless there is more of it than is wanted. -/
theorem decompress_of_le {limit least : Nat} (hless : least ≤ limit) {bytes data : Bytes}
    (h : decompress limit bytes = some data) :
    decompress least bytes = if data.length ≤ least then some data else none := by
  unfold decompress at h ⊢
  split at h
  · cases h
  · rw [if_neg ‹_›]
    split at h
    · rename_i s hread
      split at h
      · cases h
      · obtain rfl : s.out.toList = data := Option.some.inj h
        have hnarrow := Stream.readFrames_narrow (Stream.counts_freshStream limit) hless
          (Nat.zero_le _) hread
        change Stream.readFrames _ (freshStream least) bytes = _ at hnarrow
        rw [← freshStream, hnarrow, Array.length_toList]
        by_cases hfits : s.out.size ≤ least
        · rw [if_pos hfits, if_pos hfits]
          exact if_neg (Nat.not_lt.mpr hfits)
        · rw [if_neg hfits, if_neg hfits]
    · cases h

/-- What bytes stand for is got by those who are ready for it, and by no others. -/
theorem StandsFor.decompress_eq {bytes data : Bytes} (h : StandsFor bytes data) (limit : Nat) :
    decompress limit bytes = if data.length ≤ limit then some data else none := by
  obtain ⟨least, hleast⟩ := h
  exact decompress_of_le (Nat.le_max_right least limit) (hleast _ (Nat.le_max_left least limit))

end ShardMesh.Compression.Zstd
