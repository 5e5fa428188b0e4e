import ShardMesh.Proofs.Attempts
import ShardMesh.Proofs.Marshal

/-!
# Buffers on loan

The buffers of a pool go round: from the pool or one of its clones to a handle, and back, in whatever
order the handles are released. In memory a buffer is known by its place, and whoever knows the place
can write there (`Memory`). Still nobody disturbs anybody else: a place is idle or held by one handle
(`Memory.Sound`), so the memory can be seen as a pool whose handles have their bytes to themselves
(`Lending`), with the same answers to all calls (`Memory.Sound.view_call`).
-/

namespace ShardMesh.BufferPool

/-! ## Calls -/

/-- What is done with a pool, its clones and what was acquired of them. The pool that was made first has
    the number 0, each clone the next one; handles are numbered in the order in which they were
    acquired. -/
inductive Call where
  | clone (pool : Nat)
  | acquire (pool : Nat)
  /-- Bytes are written through a handle, from a position of its buffer on. -/
  | write (handle position : Nat) (data : Bytes)
  | read (handle : Nat)
  | release (handle : Nat)
  /-- Somebody asks how many buffers are available. -/
  | count (pool : Nat)
  deriving DecidableEq, Repr

/-- What a call answers. -/
inductive Answer where
  | done
  /-- The bytes of a buffer that was acquired or read. -/
  | bytes (contents : Bytes)
  | available (count : Nat)
  /-- There is no such pool, or the handle is not held, or what is written ends behind the buffer. -/
  | refused
  deriving DecidableEq, Repr

/-! ## Buffers as values -/

/-- A pool, and what has become of the buffers that were acquired of it or of its clones. -/
structure Lending where
  /-- What the pool and its clones share. -/
  pool : BufferPool
  /-- How many there are of them. -/
  pools : Nat
  /-- The buffer of every handle, as long as the handle is held. -/
  held : List (Option Bytes)

namespace Lending

/-- A pool of which nothing was acquired yet. -/
def ofSize (count bufferSize : Nat) : Lending := ⟨BufferPool.ofSize count bufferSize, 1, []⟩

/-- The buffer of a handle that is held. -/
def held? (s : Lending) (handle : Nat) : Option Bytes := s.held[handle]?.join

/-- Makes a call. -/
def call (s : Lending) : Call → Answer × Lending
  | .clone i => if i < s.pools then (.done, { s with pools := s.pools + 1 }) else (.refused, s)
  | .acquire i =>
    if i < s.pools then
      let (buffer, pool) := s.pool.acquire
      (.bytes buffer, { s with pool, held := s.held ++ [some buffer] })
    else (.refused, s)
  | .write handle position data =>
    match s.held? handle with
    | some buffer =>
      if position + data.length ≤ buffer.length then
        (.done, { s with held := s.held.set handle (some (buffer.overwrite position data)) })
      else (.refused, s)
    | none => (.refused, s)
  | .read handle =>
    match s.held? handle with
    | some buffer => (.bytes buffer, s)
    | none => (.refused, s)
  | .release handle =>
    match s.held? handle with
    | some buffer => (.done, { s with pool := s.pool.release buffer, held := s.held.set handle none })
    | none => (.refused, s)
  | .count i => if i < s.pools then (.available s.pool.available, s) else (.refused, s)

end Lending

/-! ## Buffers in memory -/

/-- What a handle knows: where its buffer is, and the size of the buffers of its pool. -/
structure Handle where
  place : Nat
  bufferSize : Nat

/-- Memory with buffers in it. -/
structure Memory where
  /-- Every buffer that was ever made, by its place. -/
  buffers : List Bytes
  /-- The places on the stack that the pool and its clones share, the one returned last in front. -/
  idle : List Nat
  /-- The size that the pool knows, and each of its clones. -/
  sizes : List Nat
  /-- Every handle, as long as it is held. -/
  held : List (Option Handle)

namespace Memory

/-- A pool of buffers of zeros. -/
def ofSize (count bufferSize : Nat) : Memory :=
  ⟨List.replicate (min count maxIdle) (freshBuffer bufferSize), List.range (min count maxIdle),
    [bufferSize], []⟩

/-- The buffer at a place. -/
def buffer (m : Memory) (place : Nat) : Bytes := m.buffers[place]?.getD []

/-- The handle of a number, if it is held. -/
def handle? (m : Memory) (handle : Nat) : Option Handle := m.held[handle]?.join

/-- Makes a buffer of zeros, at the next place. -/
def make (m : Memory) (size : Nat) : Memory :=
  { m with buffers := m.buffers ++ [freshBuffer size] }

/-- Gives a place to one more handle, and leaves the stack as given. -/
def lend (m : Memory) (idle : List Nat) (handle : Handle) : Memory :=
  { m with idle, held := m.held ++ [some handle] }

/-- Lends the place on top of the stack, or a new buffer. -/
def acquire (m : Memory) (size : Nat) : Bytes × Memory :=
  match m.idle with
  | [] => (freshBuffer size, (m.make size).lend [] ⟨m.buffers.length, size⟩)
  | place :: idle => (m.buffer place, m.lend idle ⟨place, size⟩)

/-- Puts other bytes at a place. -/
def put (m : Memory) (place : Nat) (bytes : Bytes) : Memory :=
  { m with buffers := m.buffers.set place bytes }

/-- Returns the place of a handle to the stack, unless the buffer is of no use or the stack is full. -/
def release (m : Memory) (number : Nat) (handle : Handle) : Memory :=
  { m with
    idle := if (m.buffer handle.place).length = handle.bufferSize ∧ m.idle.length < maxIdle then
        handle.place :: m.idle
      else m.idle
    held := m.held.set number none }

/-- Makes a call. -/
def call (m : Memory) : Call → Answer × Memory
  | .clone i =>
    match m.sizes[i]? with
    | some size => (.done, { m with sizes := m.sizes ++ [size] })
    | none => (.refused, m)
  | .acquire i =>
    match m.sizes[i]? with
    | some size =>
      let (contents, m) := m.acquire size
      (.bytes contents, m)
    | none => (.refused, m)
  | .write number position data =>
    match m.handle? number with
    | some handle =>
      if position + data.length ≤ (m.buffer handle.place).length then
        (.done, m.put handle.place ((m.buffer handle.place).overwrite position data))
      else (.refused, m)
    | none => (.refused, m)
  | .read number =>
    match m.handle? number with
    | some handle => (.bytes (m.buffer handle.place), m)
    | none => (.refused, m)
  | .release number =>
    match m.handle? number with
    | some handle => (.done, m.release number handle)
    | none => (.refused, m)
  | .count i => if i < m.sizes.length then (.available m.idle.length, m) else (.refused, m)

end Memory

/-! ## Numbered handles -/

section Numbered

variable {α : Type} {entries : List (Option α)} {entry : Option α} {a : α}

theorem join_getElem?_append (entries : List (Option α)) (entry : Option α) (k : Nat) :
    (entries ++ [entry])[k]?.join = if k = entries.length then entry else entries[k]?.join := by
  by_cases hk : k < entries.length
  · rw [List.getElem?_append_left hk, if_neg (by omega)]
  · rw [List.getElem?_append_right (by omega)]
    by_cases heq : k = entries.length
    · rw [heq, Nat.sub_self, if_pos rfl]
      rfl
    · rw [List.getElem?_eq_none (by simp; omega), List.getElem?_eq_none (by omega), if_neg heq]

theorem join_getElem?_set {i : Nat} (h : entries[i]?.join = some a) (k : Nat) :
    (entries.set i entry)[k]?.join = if k = i then entry else entries[k]?.join := by
  by_cases hk : k = i
  · have hi : i < entries.length := by
      refine Nat.lt_of_not_le fun hge => ?_
      rw [List.getElem?_eq_none hge] at h
      cases h
    rw [hk, List.getElem?_set_self hi, if_pos rfl]
    rfl
  · rw [List.getElem?_set_ne (Ne.symm hk), if_neg hk]

end Numbered

namespace Memory

variable {m : Memory} {size : Nat}

theorem handle?_lend (m : Memory) (idle : List Nat) (handle : Handle) (k : Nat) :
    (m.lend idle handle).handle? k = if k = m.held.length then some handle else m.handle? k :=
  join_getElem?_append ..

theorem handle?_release {number : Nat} {handle : Handle} (h : m.handle? number = some handle)
    (k : Nat) : (m.release number handle).handle? k = if k = number then none else m.handle? k :=
  join_getElem?_set h k

/-! ## Nobody shares a buffer -/

/-- Every place is idle or held by one handle, never both, and everybody agrees on the size of the
    buffers. -/
structure Sound (m : Memory) (size : Nat) : Prop where
  idle_nodup : m.idle.Nodup
  idle_inside : ∀ place ∈ m.idle, place < m.buffers.length
  held_inside : ∀ k handle, m.handle? k = some handle → handle.place < m.buffers.length
  held_not_idle : ∀ k handle, m.handle? k = some handle → handle.place ∉ m.idle
  held_apart : ∀ j k handle other, m.handle? j = some handle → m.handle? k = some other →
    handle.place = other.place → j = k
  length_eq : ∀ buffer ∈ m.buffers, buffer.length = size
  sizes_eq : ∀ known ∈ m.sizes, known = size
  bufferSize_eq : ∀ k handle, m.handle? k = some handle → handle.bufferSize = size

theorem sound_ofSize (count size : Nat) : (ofSize count size).Sound size where
  idle_nodup := List.nodup_range
  idle_inside place hplace := by simpa [ofSize] using hplace
  held_inside k handle h := by cases h
  held_not_idle k handle h := by cases h
  held_apart j k handle other h := by cases h
  length_eq buffer hbuffer := by
    rw [List.eq_of_mem_replicate hbuffer]
    exact List.length_replicate
  sizes_eq known hknown := List.mem_singleton.mp hknown
  bufferSize_eq k handle h := by cases h

theorem Sound.length_buffer (h : m.Sound size) {place : Nat} (hplace : place < m.buffers.length) :
    (m.buffer place).length = size := by
  rw [buffer, List.getElem?_eq_getElem hplace]
  exact h.length_eq _ (List.getElem_mem hplace)

/-- A pool that there is knows the size of the buffers. -/
theorem Sound.getElem?_sizes (h : m.Sound size) (i : Nat) :
    m.sizes[i]? = if i < m.sizes.length then some size else none := by
  split
  · rename_i hi
    rw [List.getElem?_eq_getElem hi, h.sizes_eq _ (List.getElem_mem hi)]
  · exact List.getElem?_eq_none (by omega)

theorem Sound.make (h : m.Sound size) : (m.make size).Sound size where
  idle_nodup := h.idle_nodup
  idle_inside place hplace := by
    show place < (m.buffers ++ _).length
    rw [List.length_append]
    exact Nat.lt_of_lt_of_le (h.idle_inside place hplace) (Nat.le_add_right _ _)
  held_inside k handle hk := by
    show handle.place < (m.buffers ++ _).length
    rw [List.length_append]
    exact Nat.lt_of_lt_of_le (h.held_inside k handle hk) (Nat.le_add_right _ _)
  held_not_idle := h.held_not_idle
  held_apart := h.held_apart
  length_eq buffer hbuffer := by
    rcases List.mem_append.mp hbuffer with hbuffer | hbuffer
    · exact h.length_eq buffer hbuffer
    · rw [List.mem_singleton.mp hbuffer]
      exact List.length_replicate
  sizes_eq := h.sizes_eq
  bufferSize_eq := h.bufferSize_eq

/-- A place that nobody holds may be lent if it is taken from the stack. -/
theorem Sound.lend (h : m.Sound size) {idle : List Nat} {place : Nat} (hidle : idle.Sublist m.idle)
    (hinside : place < m.buffers.length) (hnew : place ∉ idle)
    (hfree : ∀ k handle, m.handle? k = some handle → handle.place ≠ place) :
    (m.lend idle ⟨place, size⟩).Sound size := by
  -- what holds of the new handle, and of all that are held already, holds of all
  have hall {p : Nat → Handle → Prop} (hnew : p m.held.length ⟨place, size⟩)
      (hold : ∀ k handle, m.handle? k = some handle → p k handle) (k : Nat) (handle : Handle)
      (hk : (m.lend idle ⟨place, size⟩).handle? k = some handle) : p k handle := by
    rw [handle?_lend] at hk
    split at hk
    · rename_i heq
      cases hk
      rw [heq]
      exact hnew
    · exact hold k handle hk
  refine ⟨h.idle_nodup.sublist hidle, fun other hother => h.idle_inside other (hidle.subset hother),
    hall hinside h.held_inside, hall hnew fun k handle hk hmem => ?_, fun j k handle other hj hk => ?_,
    h.length_eq, h.sizes_eq, hall rfl h.bufferSize_eq⟩
  · exact h.held_not_idle k handle hk (hidle.subset hmem)
  · rw [handle?_lend] at hj hk
    split at hj
    · rename_i hj'
      cases hj
      split at hk
      · rename_i hk'
        exact fun _ => hj'.trans hk'.symm
      · exact fun hplace => absurd hplace.symm (hfree k other hk)
    · split at hk
      · cases hk
        exact fun hplace => absurd hplace (hfree j handle hj)
      · exact h.held_apart j k handle other hj hk

theorem Sound.acquire (h : m.Sound size) : (m.acquire size).2.Sound size := by
  unfold Memory.acquire
  cases hidle : m.idle with
  | nil =>
    refine h.make.lend (List.nil_sublist _) ?_ List.not_mem_nil fun k handle hk => ?_
    · show m.buffers.length < (m.buffers ++ _).length
      rw [List.length_append]
      exact Nat.lt_succ_self _
    · exact Nat.ne_of_lt (h.held_inside k handle hk)
  | cons place idle =>
    have hplace : place ∈ m.idle := hidle ▸ List.mem_cons_self
    have hnodup := h.idle_nodup
    rw [hidle] at hnodup
    refine h.lend (hidle ▸ List.sublist_cons_self place idle) (h.idle_inside place hplace)
      (List.nodup_cons.mp hnodup).1 fun k handle hk heq => ?_
    exact h.held_not_idle k handle hk (heq ▸ hplace)

theorem Sound.put (h : m.Sound size) (place : Nat) {bytes : Bytes} (hbytes : bytes.length = size) :
    (m.put place bytes).Sound size where
  idle_nodup := h.idle_nodup
  idle_inside other hother := by
    show other < (m.buffers.set place bytes).length
    rw [List.length_set]
    exact h.idle_inside other hother
  held_inside k handle hk := by
    show handle.place < (m.buffers.set place bytes).length
    rw [List.length_set]
    exact h.held_inside k handle hk
  held_not_idle := h.held_not_idle
  held_apart := h.held_apart
  length_eq buffer hbuffer := by
    rcases List.mem_or_eq_of_mem_set hbuffer with hbuffer | rfl
    · exact h.length_eq buffer hbuffer
    · exact hbytes
  sizes_eq := h.sizes_eq
  bufferSize_eq := h.bufferSize_eq

/-- A handle that is released had its place for itself, so the place may be lent again. -/
theorem Sound.release (h : m.Sound size) {number : Nat} {handle : Handle}
    (hnumber : m.handle? number = some handle) : (m.release number handle).Sound size := by
  have hold {k : Nat} {other : Handle} (hk : (m.release number handle).handle? k = some other) :
      k ≠ number ∧ m.handle? k = some other := by
    rw [handle?_release hnumber] at hk
    split at hk
    · cases hk
    · exact ⟨‹_›, hk⟩
  have hidle {place : Nat} (hplace : place ∈ (m.release number handle).idle) :
      place = handle.place ∨ place ∈ m.idle := by
    unfold Memory.release at hplace
    dsimp only at hplace
    split at hplace
    · exact List.mem_cons.mp hplace
    · exact .inr hplace
  refine ⟨?_, fun place hplace => ?_, fun k other hk => h.held_inside k other (hold hk).2,
    fun k other hk hplace => ?_, fun j k first second hj hk => ?_, h.length_eq, h.sizes_eq,
    fun k other hk => h.bufferSize_eq k other (hold hk).2⟩
  · unfold Memory.release
    dsimp only
    split
    · exact List.nodup_cons.mpr ⟨h.held_not_idle number handle hnumber, h.idle_nodup⟩
    · exact h.idle_nodup
  · rcases hidle hplace with rfl | hplace
    · exact h.held_inside number handle hnumber
    · exact h.idle_inside place hplace
  · obtain ⟨hne, hk⟩ := hold hk
    rcases hidle hplace with heq | hplace
    · exact hne (h.held_apart k number other handle hk hnumber heq)
    · exact h.held_not_idle k other hk hplace
  · exact h.held_apart j k first second (hold hj).2 (hold hk).2

theorem Sound.call (h : m.Sound size) (c : Call) : (m.call c).2.Sound size := by
  cases c with
  | clone i =>
    unfold Memory.call
    dsimp only
    split
    · rename_i known hknown
      refine ⟨h.idle_nodup, h.idle_inside, h.held_inside, h.held_not_idle, h.held_apart, h.length_eq,
        fun other hother => ?_, h.bufferSize_eq⟩
      rcases List.mem_append.mp hother with hother | hother
      · exact h.sizes_eq other hother
      · rw [List.mem_singleton.mp hother]
        exact h.sizes_eq known (List.mem_of_getElem? hknown)
    · exact h
  | acquire i =>
    unfold Memory.call
    dsimp only
    split
    · rename_i known hknown
      rw [h.sizes_eq known (List.mem_of_getElem? hknown)]
      exact h.acquire
    · exact h
  | write number position data =>
    unfold Memory.call
    dsimp only
    split
    · rename_i handle hnumber
      split
      · rename_i hfits
        refine h.put handle.place ?_
        rw [Bytes.length_overwrite hfits, h.length_buffer (h.held_inside number handle hnumber)]
      · exact h
    · exact h
  | read number =>
    unfold Memory.call
    dsimp only
    split <;> exact h
  | release number =>
    unfold Memory.call
    dsimp only
    split
    · exact h.release ‹_›
    · exact h
  | count i =>
    unfold Memory.call
    dsimp only
    split <;> exact h

/-! ## Memory seen as values -/

/-- What the pool and the handles see of the memory. -/
def view (m : Memory) (size : Nat) : Lending :=
  ⟨⟨size, m.idle.map m.buffer⟩, m.sizes.length,
    m.held.map (Option.map fun handle => m.buffer handle.place)⟩

theorem held?_view (m : Memory) (size k : Nat) :
    (m.view size).held? k = (m.handle? k).map fun handle => m.buffer handle.place := by
  unfold Lending.held? view handle?
  rw [List.getElem?_map]
  rcases m.held[k]? with _ | _ | handle <;> rfl

theorem view_ofSize (count size : Nat) :
    (ofSize count size).view size = Lending.ofSize count size := by
  have hidle : (List.range (min count maxIdle)).map (ofSize count size).buffer =
      List.replicate (min count maxIdle) (freshBuffer size) := by
    refine List.eq_replicate_iff.mpr ⟨by simp, fun bytes hbytes => ?_⟩
    obtain ⟨place, hplace, rfl⟩ := List.mem_map.mp hbytes
    have hless := List.mem_range.mp hplace
    show (List.replicate (min count maxIdle) (freshBuffer size))[place]?.getD [] = _
    rw [List.getElem?_replicate_of_lt hless]
    rfl
  unfold view Lending.ofSize BufferPool.ofSize
  rw [show (ofSize count size).idle = List.range (min count maxIdle) from rfl, hidle]
  rfl

theorem buffer_put_self {place : Nat} (hplace : place < m.buffers.length) (bytes : Bytes) :
    (m.put place bytes).buffer place = bytes := by
  show (m.buffers.set place bytes)[place]?.getD [] = bytes
  rw [List.getElem?_set_self hplace]
  rfl

theorem buffer_put_of_ne {place other : Nat} (hne : other ≠ place) (bytes : Bytes) :
    (m.put place bytes).buffer other = m.buffer other := by
  show (m.buffers.set place bytes)[other]?.getD [] = _
  rw [List.getElem?_set_ne hne.symm]
  rfl

/-- Memory where what is idle and what is held has the same bytes looks the same. -/
theorem view_congr {m' : Memory} (hidle : ∀ place ∈ m.idle, m'.buffer place = m.buffer place)
    (hheld : ∀ k handle, m.handle? k = some handle →
      m'.buffer handle.place = m.buffer handle.place)
    (hsame : m'.idle = m.idle ∧ m'.sizes = m.sizes ∧ m'.held = m.held) :
    m'.view size = m.view size := by
  obtain ⟨hidle', hsizes', hheld'⟩ := hsame
  unfold view
  rw [hidle', hsizes', hheld', List.map_congr_left hidle]
  congr 1
  refine List.map_congr_left fun entry hentry => ?_
  cases entry with
  | none => rfl
  | some handle =>
    obtain ⟨k, hk⟩ := List.mem_iff_getElem?.mp hentry
    exact congrArg some (hheld k handle (by rw [handle?, hk]; rfl))

theorem Sound.view_make (h : m.Sound size) : (m.make size).view size = m.view size := by
  have hsame {place : Nat} (hplace : place < m.buffers.length) :
      (m.make size).buffer place = m.buffer place := by
    show (m.buffers ++ _)[place]?.getD [] = _
    rw [List.getElem?_append_left hplace]
    rfl
  exact view_congr (fun place hplace => hsame (h.idle_inside place hplace))
    (fun k handle hk => hsame (h.held_inside k handle hk)) ⟨rfl, rfl, rfl⟩

theorem buffer_make (m : Memory) (size : Nat) :
    (m.make size).buffer m.buffers.length = freshBuffer size := by
  show (m.buffers ++ _)[m.buffers.length]?.getD [] = _
  rw [List.getElem?_append_right (Nat.le_refl _), Nat.sub_self]
  rfl

theorem view_lend (m : Memory) (size : Nat) (idle : List Nat) (handle : Handle) :
    (m.lend idle handle).view size = { m.view size with
      pool := ⟨size, idle.map m.buffer⟩
      held := (m.view size).held ++ [some (m.buffer handle.place)] } := by
  unfold view lend
  rw [List.map_append]
  rfl

theorem Sound.view_acquire (h : m.Sound size) :
    (m.acquire size).1 = (m.view size).pool.acquire.1 ∧
      (m.acquire size).2.view size = { m.view size with
        pool := (m.view size).pool.acquire.2
        held := (m.view size).held ++ [some (m.acquire size).1] } := by
  unfold Memory.acquire BufferPool.acquire
  cases hidle : m.idle with
  | nil =>
    have hpool : (m.view size).pool = ⟨size, []⟩ := by
      unfold view
      rw [hidle]
      rfl
    rw [hpool, view_lend, h.view_make, buffer_make]
    exact ⟨rfl, rfl⟩
  | cons place idle =>
    have hpool : (m.view size).pool = ⟨size, m.buffer place :: idle.map m.buffer⟩ := by
      unfold view
      rw [hidle]
      rfl
    rw [hpool, view_lend]
    exact ⟨rfl, rfl⟩

section Held

variable {number : Nat} {handle : Handle}

/-- What is written through a handle is seen there, and nowhere else. -/
theorem Sound.view_put (h : m.Sound size) (hnumber : m.handle? number = some handle) (bytes : Bytes) :
    (m.put handle.place bytes).view size =
      { m.view size with held := (m.view size).held.set number (some bytes) } := by
  have hidle : m.idle.map (m.put handle.place bytes).buffer = m.idle.map m.buffer := by
    refine List.map_congr_left fun place hplace => buffer_put_of_ne (fun heq => ?_) bytes
    exact h.held_not_idle number handle hnumber (heq ▸ hplace)
  unfold view
  rw [show (m.put handle.place bytes).idle = m.idle from rfl, hidle,
    show (m.put handle.place bytes).held = m.held from rfl]
  congr 1
  have hentry : m.held[number]? = some (some handle) := Option.join_eq_some_iff.mp hnumber
  refine List.ext_getElem? fun k => ?_
  by_cases hk : k = number
  · have hless : number < (m.held.map (Option.map fun handle => m.buffer handle.place)).length := by
      rw [List.length_map]
      exact (List.getElem?_eq_some_iff.mp hentry).1
    rw [hk, List.getElem?_set_self hless, List.getElem?_map, hentry]
    exact congrArg (some ∘ some) (buffer_put_self (h.held_inside number handle hnumber) bytes)
  · rw [List.getElem?_set_ne (Ne.symm hk), List.getElem?_map, List.getElem?_map]
    cases hother : m.held[k]? with
    | none => rfl
    | some entry =>
      cases entry with
      | none => rfl
      | some other =>
        have hne : other.place ≠ handle.place := fun heq =>
          hk (h.held_apart k number other handle (Option.join_eq_some_iff.mpr hother) hnumber heq)
        exact congrArg (some ∘ some) (buffer_put_of_ne hne bytes)

/-- A buffer that is returned is available where it was returned to. -/
theorem Sound.view_release (h : m.Sound size) (hnumber : m.handle? number = some handle) :
    (m.release number handle).view size = { m.view size with
      pool := (m.view size).pool.release (m.buffer handle.place)
      held := (m.view size).held.set number none } := by
  unfold view Memory.release BufferPool.release
  rw [h.bufferSize_eq number handle hnumber]
  dsimp only
  rw [List.length_map, List.map_set]
  congr 1
  split <;> rfl

end Held

/-- Calls on the memory are calls on what is seen of it. -/
theorem Sound.view_call (h : m.Sound size) (c : Call) :
    (m.view size).call c = ((m.call c).1, (m.call c).2.view size) := by
  have hpools : (m.view size).pools = m.sizes.length := rfl
  unfold Lending.call Memory.call
  cases c with
  | clone i =>
    dsimp only
    rw [hpools, h.getElem?_sizes]
    split
    · unfold view
      rw [List.length_append]
      rfl
    · rfl
  | acquire i =>
    dsimp only
    rw [hpools, h.getElem?_sizes]
    split
    · obtain ⟨hbytes, hview⟩ := h.view_acquire
      dsimp only
      rw [hview, hbytes]
      rfl
    · rfl
  | write number position data =>
    dsimp only
    rw [held?_view]
    cases hnumber : m.handle? number with
    | none => rfl
    | some handle =>
      dsimp only [Option.map_some]
      split
      · rw [h.view_put hnumber]
      · rfl
  | read number =>
    dsimp only
    rw [held?_view]
    cases m.handle? number <;> rfl
  | release number =>
    dsimp only
    rw [held?_view]
    cases hnumber : m.handle? number with
    | none => rfl
    | some handle =>
      dsimp only [Option.map_some]
      rw [h.view_release hnumber]
  | count i =>
    dsimp only
    rw [hpools]
    have havailable : (m.view size).pool.available = m.idle.length := List.length_map ..
    split
    · rw [havailable]
    · rfl

theorem Sound.inTurn_call (h : m.Sound size) (calls : List Call) :
    (inTurn Memory.call m calls).2.Sound size :=
  ShardMesh.inTurn_invariant (fun m : Memory => m.Sound size) (fun _ c hm => hm.call c) h calls

theorem Sound.inTurn_view (h : m.Sound size) (calls : List Call) :
    inTurn Lending.call (m.view size) calls =
      ((inTurn Memory.call m calls).1, (inTurn Memory.call m calls).2.view size) :=
  ShardMesh.inTurn_view (fun m : Memory => m.view size) (fun m => m.Sound size)
    (fun _ c hm => hm.view_call c) (fun _ c hm => hm.call c) h calls

end Memory

/-! ## The bytes of a handle -/

/-- What a call makes of the bytes of a handle that stays held: they change where somebody writes
    through this handle. -/
def Call.onto (number : Nat) (contents : Bytes) : Call → Bytes
  | .write handle position data =>
    if handle = number ∧ position + data.length ≤ contents.length then
      contents.overwrite position data
    else contents
  | _ => contents

namespace Lending

variable {s : Lending} {number : Nat} {contents : Bytes}

theorem held?_lend (h : s.held? number = some contents) (entry : Option Bytes) :
    (s.held ++ [entry])[number]?.join = some contents := by
  rw [join_getElem?_append, if_neg]
  · exact h
  · rintro rfl
    unfold held? at h
    rw [List.getElem?_eq_none (Nat.le_refl _)] at h
    cases h

/-- What is done through other handles does not change the bytes of a handle. -/
theorem held?_call (h : s.held? number = some contents) {c : Call} (hc : c ≠ .release number) :
    (s.call c).2.held? number = some (c.onto number contents) := by
  unfold call
  cases c with
  | clone i =>
    dsimp only
    split <;> exact h
  | acquire i =>
    dsimp only
    split
    · exact held?_lend h _
    · exact h
  | write handle position data =>
    dsimp only [Call.onto]
    by_cases heq : handle = number
    · rw [heq, h]
      dsimp only
      by_cases hfits : position + data.length ≤ contents.length
      · rw [if_pos hfits, if_pos ⟨rfl, hfits⟩]
        exact (join_getElem?_set h number).trans (if_pos rfl)
      · rw [if_neg hfits, if_neg fun hboth => hfits hboth.2]
        exact h
    · rw [if_neg fun hboth => heq hboth.1]
      split
      · rename_i other hother
        split
        · exact (join_getElem?_set hother number).trans ((if_neg (Ne.symm heq)).trans h)
        · exact h
      · exact h
  | read handle =>
    dsimp only
    split <;> exact h
  | release handle =>
    dsimp only
    split
    · rename_i other hother
      have hne : number ≠ handle := fun heq => hc (congrArg Call.release heq.symm)
      exact (join_getElem?_set hother number).trans ((if_neg hne).trans h)
    · exact h
  | count i =>
    dsimp only
    split <;> exact h

theorem held?_inTurn (h : s.held? number = some contents) {calls : List Call}
    (hcalls : .release number ∉ calls) :
    (inTurn call s calls).2.held? number = some (calls.foldl (Call.onto number) contents) := by
  induction calls generalizing s contents with
  | nil => exact h
  | cons c calls ih =>
    obtain ⟨hc, hmore⟩ := List.ne_and_not_mem_of_not_mem_cons hcalls
    exact ih (held?_call h hc.symm) hmore

end Lending

/-! ## What can be told from the calls -/

/-- How many pools there are, which handles are held, and how many buffers are available. -/
structure Tally where
  pools : Nat
  live : List Bool
  available : Nat

namespace Tally

/-- A pool that was made for a number of buffers. -/
def ofSize (count : Nat) : Tally := ⟨1, [], min count maxIdle⟩

/-- One buffer less is available after it was acquired, and one more after it was released, unless
    there are as many as are kept. -/
def note (t : Tally) : Call → Tally
  | .clone i => if i < t.pools then { t with pools := t.pools + 1 } else t
  | .acquire i =>
    if i < t.pools then { t with live := t.live ++ [true], available := t.available - 1 } else t
  | .release handle =>
    if t.live[handle]? = some true then { t with
      live := t.live.set handle false
      available := if t.available < maxIdle then t.available + 1 else t.available }
    else t
  | _ => t

end Tally

namespace Memory

variable {m : Memory} {size : Nat}

/-- What is to be told of the memory. -/
def tally (m : Memory) : Tally := ⟨m.sizes.length, m.held.map Option.isSome, m.idle.length⟩

theorem live_tally_iff (m : Memory) (k : Nat) :
    m.tally.live[k]? = some true ↔ (m.handle? k).isSome = true := by
  show (m.held.map Option.isSome)[k]? = some true ↔ _
  rw [List.getElem?_map, handle?]
  rcases m.held[k]? with _ | _ | handle <;> simp

theorem tally_ofSize (count size : Nat) : (ofSize count size).tally = Tally.ofSize count := by
  unfold tally Tally.ofSize
  rw [show (ofSize count size).idle = List.range (min count maxIdle) from rfl, List.length_range]
  rfl

theorem tally_acquire (m : Memory) (size : Nat) : (m.acquire size).2.tally =
    { m.tally with live := m.tally.live ++ [true], available := m.tally.available - 1 } := by
  have hlive (handle : Handle) : (m.held ++ [some handle]).map Option.isSome =
      m.held.map Option.isSome ++ [true] := List.map_append
  unfold acquire tally
  cases m.idle with
  | nil => exact congrArg (Tally.mk m.sizes.length · 0) (hlive _)
  | cons place idle => exact congrArg (Tally.mk m.sizes.length · idle.length) (hlive _)

/-- A buffer that is returned has the length that is wanted, so only the number of those there are
    decides whether it is kept. -/
theorem Sound.tally_release (h : m.Sound size) {number : Nat} {handle : Handle}
    (hnumber : m.handle? number = some handle) : (m.release number handle).tally =
      { m.tally with
        live := m.tally.live.set number false
        available := if m.tally.available < maxIdle then m.tally.available + 1
          else m.tally.available } := by
  have hlength : (m.buffer handle.place).length = handle.bufferSize := by
    rw [h.length_buffer (h.held_inside number handle hnumber), h.bufferSize_eq number handle hnumber]
  unfold Memory.release tally
  rw [List.map_set]
  by_cases hroom : m.idle.length < maxIdle
  · rw [if_pos ⟨hlength, hroom⟩, if_pos hroom]
    rfl
  · rw [if_neg fun hboth => hroom hboth.2, if_neg hroom]
    rfl

theorem Sound.tally_call (h : m.Sound size) (c : Call) : (m.call c).2.tally = m.tally.note c := by
  have hpools : m.tally.pools = m.sizes.length := rfl
  unfold Memory.call Tally.note
  cases c with
  | clone i =>
    dsimp only
    rw [hpools, h.getElem?_sizes]
    by_cases hi : i < m.sizes.length
    · rw [if_pos hi, if_pos hi]
      unfold tally
      rw [List.length_append]
      rfl
    · rw [if_neg hi, if_neg hi]
  | acquire i =>
    dsimp only
    rw [hpools, h.getElem?_sizes]
    by_cases hi : i < m.sizes.length
    · rw [if_pos hi, if_pos hi]
      exact m.tally_acquire size
    · rw [if_neg hi, if_neg hi]
  | write number position data =>
    dsimp only
    split
    · split <;> rfl
    · rfl
  | read number =>
    dsimp only
    split <;> rfl
  | release number =>
    dsimp only
    cases hnumber : m.handle? number with
    | none => rw [if_neg (by rw [live_tally_iff, hnumber]; exact Bool.false_ne_true)]
    | some handle =>
      rw [if_pos ((m.live_tally_iff number).mpr (by rw [hnumber]; rfl))]
      exact h.tally_release hnumber
  | count i =>
    dsimp only
    split <;> rfl

theorem Sound.tally_inTurn (h : m.Sound size) (calls : List Call) :
    (inTurn Memory.call m calls).2.tally = calls.foldl Tally.note m.tally := by
  induction calls generalizing m with
  | nil => rfl
  | cons c calls ih => rw [List.foldl_cons, ← h.tally_call]; exact ih (h.call c)

/-! ## Everybody for himself -/

/-- The bytes that a handle was acquired with, and what was written through it, are what is read
    through it, whatever else is done. -/
theorem Sound.read_held (h : m.Sound size) {number : Nat} {handle : Handle}
    (hnumber : m.handle? number = some handle) {more : List Call} (hmore : .release number ∉ more) :
    ((inTurn Memory.call m more).2.call (.read number)).1 =
      .bytes (more.foldl (Call.onto number) (m.buffer handle.place)) := by
  have hseen : (m.view size).held? number = some (m.buffer handle.place) := by
    rw [held?_view, hnumber]
    rfl
  have hlast := Lending.held?_inTurn hseen hmore
  rw [h.inTurn_view] at hlast
  have hread := (h.inTurn_call more).view_call (.read number)
  unfold Lending.call at hread
  dsimp only at hread
  rw [hlast] at hread
  exact (congrArg Prod.fst hread).symm

/-- What is acquired is held by the next handle. -/
theorem acquire_held (m : Memory) (size : Nat) :
    ∃ handle, (m.acquire size).2.handle? m.held.length = some handle ∧
      (m.acquire size).2.buffer handle.place = (m.acquire size).1 := by
  unfold acquire
  cases m.idle with
  | nil => exact ⟨_, (handle?_lend ..).trans (if_pos rfl), m.buffer_make size⟩
  | cons place idle => exact ⟨_, (handle?_lend ..).trans (if_pos rfl), rfl⟩

theorem Sound.call_acquire (h : m.Sound size) {i : Nat} (hi : i < m.sizes.length) :
    m.call (.acquire i) = (.bytes (m.acquire size).1, (m.acquire size).2) := by
  unfold Memory.call
  dsimp only
  rw [h.getElem?_sizes, if_pos hi]

end Memory

/-- Whatever is done with a pool, its clones and their handles, in whatever order:

    the pool and the handles behave as if every handle had its bytes for itself, and these are of
    the pool's size; a buffer is available once or held by one handle, never both; the handles that
    are held, and the number of buffers that are available, are those that can be told from the
    calls; and through a handle one reads, until it is released, what it was acquired with under
    what was written through it, and nothing of what else is done. -/
theorem lent_apart (count size : Nat) (calls : List Call) :
    let m := (inTurn Memory.call (Memory.ofSize count size) calls).2
    let tally := calls.foldl Tally.note (Tally.ofSize count)
    inTurn Lending.call (Lending.ofSize count size) calls =
        ((inTurn Memory.call (Memory.ofSize count size) calls).1, m.view size) ∧
      (∀ k handle, m.handle? k = some handle → (m.buffer handle.place).length = size) ∧
      (m.idle.Nodup ∧ (∀ k handle, m.handle? k = some handle → handle.place ∉ m.idle) ∧
        ∀ j k handle other, m.handle? j = some handle → m.handle? k = some other →
          handle.place = other.place → j = k) ∧
      (∀ k, (m.handle? k).isSome = true ↔ tally.live[k]? = some true) ∧
      (∀ i < tally.pools, (m.call (.count i)).1 = .available tally.available) ∧
      ∀ i < tally.pools, ∃ contents acquired,
        m.call (.acquire i) = (.bytes contents, acquired) ∧ contents.length = size ∧
          ∀ more, .release tally.live.length ∉ more →
            ((inTurn Memory.call acquired more).2.call (.read tally.live.length)).1 =
              .bytes (more.foldl (Call.onto tally.live.length) contents) := by
  intro m tally
  have hstart := Memory.sound_ofSize count size
  have hm : m.Sound size := hstart.inTurn_call calls
  have htally : tally = m.tally := by
    show calls.foldl _ _ = _
    rw [← Memory.tally_ofSize count size]
    exact (hstart.tally_inTurn calls).symm
  have hlive : tally.live.length = m.held.length := by
    rw [htally]
    exact List.length_map ..
  refine ⟨?_, fun k handle hk => hm.length_buffer (hm.held_inside k handle hk),
    ⟨hm.idle_nodup, hm.held_not_idle, hm.held_apart⟩, fun k => ?_, fun i hi => ?_, fun i hi => ?_⟩
  · rw [← Memory.view_ofSize]
    exact hstart.inTurn_view calls
  · rw [htally]
    exact (m.live_tally_iff k).symm
  · rw [htally] at hi ⊢
    exact congrArg Prod.fst (if_pos hi)
  · rw [htally] at hi
    obtain ⟨handle, hhandle, hcontents⟩ := m.acquire_held size
    refine ⟨_, _, hm.call_acquire hi, ?_, fun more hmore => ?_⟩
    · rw [← hcontents]
      exact hm.acquire.length_buffer (hm.acquire.held_inside _ handle hhandle)
    · rw [hlive] at hmore ⊢
      rw [← hcontents]
      exact hm.acquire.read_held hhandle hmore

/-- What is acquired shows what its last holder wrote; the other handle sees nothing of that. -/
example :
    (inTurn Memory.call (Memory.ofSize 1 2)
        [.clone 0, .acquire 0, .write 0 1 [7], .acquire 1, .release 0, .count 1, .acquire 1,
          .read 1]).1 =
      [.done, .bytes [0, 0], .done, .bytes [0, 0], .done, .available 1, .bytes [0, 7],
        .bytes [0, 0]] := rfl

end ShardMesh.BufferPool
