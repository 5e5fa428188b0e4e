import ShardMesh.Proofs.Scratch
import ShardMesh.Proofs.Server.Echo

/-!
# What a broadcast sends

A broadcast goes over seats, and a connection that is active and accepts frames gets one frame for
every time that its seat is listed, whatever becomes of the others. For this the codec has to encode
the packet again and again, which it does if it does so once and the packet is written over whatever
is in the scratch buffers.
-/

namespace ShardMesh

variable {C P : Type} [Packet P]

namespace Codec

/-- A codec encodes a packet, also after it has encoded others. -/
def Encodes (c : Codec P) (p : P) : Prop :=
  ∀ c', c.Continues c' → ∃ frame, (c'.encode p).1 = .ok frame

theorem Encodes.continues {c c' : Codec P} {p : P} (h : c.Encodes p) (hc : c.Continues c') :
    c'.Encodes p :=
  fun c'' hc' => h c'' (hc.trans hc')

/-- What is encoded once is encoded again. -/
theorem encodes_of_imprints {c : Codec P} (hc : c.scratch.Uniform) (hkey : c.cipher.HasKey) {p : P}
    (hp : Packet.Imprints p) {frame : Bytes} (h : (c.encode p).1 = .ok frame) : c.Encodes p := by
  intro c' hcontinues
  cases hagain : (c'.encode p).1 with
  | ok frame' => exact ⟨frame', rfl⟩
  | error e =>
    rw [(hcontinues.encode_error_iff hc hkey hp e).mp hagain] at h
    cases h

end Codec

namespace Connection

@[simp] theorem traded_nil (c : Connection C) : c.traded 0 0 [] = c := by
  simp [traded]

/-- Sending encodes one packet, or nothing. -/
theorem continues_send (c : Connection C) {hub : Hub P} (hc : hub.codec.scratch.Uniform)
    (packet : P) : hub.codec.Continues (c.send hub packet).2.2.codec := by
  have hencode := hub.codec.encode_continues packet hc
  unfold send
  split
  · exact .refl hub.codec
  · split
    · rename_i hub' h
      rwa [← show hub'.codec = (hub.codec.encode packet).2 from congrArg (·.2.codec) h.symm] at hencode
    · rename_i hub' h
      rw [← show hub'.codec = (hub.codec.encode packet).2 from congrArg (·.2.codec) h.symm] at hencode
      split <;> exact hencode

end Connection

namespace Roster

/-- A broadcast sends over the first seat if its connection is active, and goes on with the others. -/
theorem broadcast_cons_of_active {keep : Connection C → Bool} {packet : P} {seat : Seat}
    {r : Roster C} {hub : Hub P} {c : Connection C} (hc : r.get? seat = some c)
    (hactive : (c.active && keep c) = true) (seats : List Seat) :
    (broadcast keep packet (seat :: seats) r hub).2 =
      (broadcast keep packet seats (r.set seat (c.send hub packet).2.1)
        (c.send hub packet).2.2).2 := by
  rw [broadcast, hc]
  dsimp only
  rw [if_pos hactive]
  rcases c.send hub packet with ⟨_ | _, c', hub'⟩ <;> rfl

theorem broadcast_cons_of_idle {keep : Connection C → Bool} {packet : P} {seat : Seat}
    {r : Roster C} {hub : Hub P} (hidle : ∀ c, r.get? seat = some c → (c.active && keep c) = false)
    (seats : List Seat) :
    broadcast keep packet (seat :: seats) r hub = broadcast keep packet seats r hub := by
  rw [broadcast]
  split
  · rfl
  · rename_i c hc
    rw [hidle c hc, if_neg Bool.false_ne_true]

theorem get?_set_ne (r : Roster C) {seat other : Seat} (h : other ≠ seat) (c : Connection C) :
    (r.set other c).get? seat = r.get? seat := List.getElem?_set_ne h

/-- An active connection that accepts frames gets a frame of the packet for every time that its seat
    is listed. -/
theorem broadcast_spec {r : Roster C} {hub : Hub P} {packet : P} {seat : Seat} {c : Connection C}
    (hc : r.get? seat = some c) (hactive : c.active = true) (hopen : c.transport.isOpen = true)
    (huniform : hub.codec.scratch.Uniform) (hencodes : hub.codec.Encodes packet)
    (seats : List Seat) :
    ∃ frames, (broadcast (fun _ => true) packet seats r hub).2.1.get? seat =
        some (c.traded 0 0 frames) ∧
      frames.length = seats.count seat ∧
      ∀ frame ∈ frames, ∃ codec, hub.codec.Continues codec ∧ (codec.encode packet).1 = .ok frame := by
  induction seats generalizing r hub c with
  | nil => exact ⟨[], by rw [Connection.traded_nil]; exact hc, rfl, by simp⟩
  | cons first seats ih =>
    by_cases hfirst : first = seat
    · subst hfirst
      obtain ⟨frame, hframe⟩ := hencodes hub.codec (.refl hub.codec)
      have hcontinues := c.continues_send huniform packet
      have hsend := Connection.send_of_open hactive hopen hframe
      have hafter : (broadcast (fun _ => true) packet (first :: seats) r hub).2 = _ :=
        broadcast_cons_of_active hc (by rw [hactive]; rfl) seats
      rw [hsend] at hafter hcontinues
      obtain ⟨frames, hget, hcount, hall⟩ := ih
        (Server.get?_set hc (c.traded 0 0 [frame])) hactive
        (by simpa [Connection.traded, Transport.isOpen] using hopen) (hcontinues.uniform huniform)
        (hencodes.continues hcontinues)
      refine ⟨frame :: frames, ?_, ?_, List.forall_mem_cons.mpr ⟨?_, fun f hf => ?_⟩⟩
      · rw [hafter, hget, Connection.traded_traded]
        rfl
      · rw [List.length_cons, hcount, List.count_cons_self]
      · exact ⟨hub.codec, .refl hub.codec, hframe⟩
      · obtain ⟨codec, hcodec, hencode⟩ := hall f hf
        exact ⟨codec, hcontinues.trans hcodec, hencode⟩
    · rw [List.count_cons_of_ne hfirst]
      by_cases hsent : ∃ other, r.get? first = some other ∧ other.active = true
      · obtain ⟨other, hother, hactive'⟩ := hsent
        have hcontinues := other.continues_send huniform packet
        rw [broadcast_cons_of_active hother (by rw [hactive']; rfl)]
        obtain ⟨frames, hget, hcount, hall⟩ := ih
          ((get?_set_ne r hfirst (other.send hub packet).2.1).trans hc) hactive hopen
          (hcontinues.uniform huniform) (hencodes.continues hcontinues)
        refine ⟨frames, hget, hcount, fun f hf => ?_⟩
        obtain ⟨codec, hcodec, hencode⟩ := hall f hf
        exact ⟨codec, hcontinues.trans hcodec, hencode⟩
      · have hidle : ∀ other, r.get? first = some other → (other.active && true) = false := by
          intro other hother
          rw [Bool.and_true]
          exact Bool.eq_false_iff.mpr fun hactive' => hsent ⟨other, hother, hactive'⟩
        rw [broadcast_cons_of_idle hidle]
        exact ih hc hactive hopen huniform hencodes

end Roster
end ShardMesh
