import ShardMesh.Client.Basic
import ShardMesh.Proofs.Server.Echo

/-!
# What handlers do to a transport

A session leaves a transport to its handler for submitting frames and for closing it. Servers and
clients do nothing else to it (`LawfulHandler`): whatever they are told in the course of a session, the
frames that waited before still wait, in front of those that were accepted meanwhile.
-/

namespace ShardMesh

variable {C P : Type} [Packet P]

/-- How a transport is used: frames are submitted, of which these are accepted, one after the other, and
it may be closed. -/
inductive Transport.Takes : Transport → List Bytes → Transport → Prop where
  | nothing (t : Transport) : Takes t [] t
  | submit {t t' t'' : Transport} {frames : List Bytes} (h : Takes t frames t') (frame : Bytes)
      (hsubmit : t'.submit frame = .ok t'') : Takes t (frames ++ [frame]) t''
  | close {t t' : Transport} {frames : List Bytes} (h : Takes t frames t') : Takes t frames t'.close

namespace Transport

variable {t t' t'' : Transport} {frames frames' : List Bytes}

theorem Takes.trans (h : t.Takes frames t') (h' : t'.Takes frames' t'') :
    t.Takes (frames ++ frames') t'' := by
  induction h' with
  | nothing => rwa [List.append_nil]
  | submit _ frame hsubmit ih =>
    rw [← List.append_assoc]
    exact ih.submit frame hsubmit
  | close _ ih => exact ih.close

theorem submit_eq_ok_iff {frame : Bytes} :
    t.submit frame = .ok t' ↔ t.isOpen = true ∧ t' = { t with queue := t.queue ++ [frame] } := by
  unfold submit isOpen
  cases t.closed <;> cases t.abandoned <;> simp [eq_comm]

/-- The accepted frames wait behind those that waited before. -/
theorem Takes.queue (h : t.Takes frames t') : t'.queue = t.queue ++ frames := by
  induction h with
  | nothing => exact (List.append_nil _).symm
  | submit _ frame hsubmit ih =>
    obtain ⟨-, rfl⟩ := submit_eq_ok_iff.mp hsubmit
    rw [ih, List.append_assoc]
  | close _ ih => exact ih

theorem Takes.abandoned (h : t.Takes frames t') : t'.abandoned = t.abandoned := by
  induction h with
  | nothing => rfl
  | submit _ frame hsubmit ih =>
    obtain ⟨-, rfl⟩ := submit_eq_ok_iff.mp hsubmit
    exact ih
  | close _ ih => exact ih

/-- A closed transport stays closed and accepts nothing. -/
theorem Takes.closed (h : t.Takes frames t') (hclosed : t.closed = true) :
    t'.closed = true ∧ frames = [] := by
  induction h with
  | nothing => exact ⟨hclosed, rfl⟩
  | submit _ frame hsubmit ih =>
    have hopen := (submit_eq_ok_iff.mp hsubmit).1
    rw [isOpen, ih.1] at hopen
    cases hopen
  | close _ ih => exact ⟨rfl, ih.2⟩

end Transport

/-! ## Handlers -/

namespace SessionHandler

variable {H : Type} [SessionHandler H]

/-- There is a connection on the seat: its transport is what it is changed to. -/
def Seated (h : H) (seat : Seat) : Prop := ∀ t : Transport, transport (setTransport h seat t) seat = t

/-- A handler has used the transport on a seat; these frames were accepted. -/
structure Uses (seat : Seat) (h : H) (frames : List Bytes) (h' : H) : Prop where
  seated : Seated h' seat
  takes : (transport h seat).Takes frames (transport h' seat)

theorem Uses.refl {h : H} {seat : Seat} (hseated : Seated h seat) : Uses seat h [] h :=
  ⟨hseated, .nothing _⟩

theorem Uses.trans {h h' h'' : H} {seat : Seat} {frames frames' : List Bytes}
    (hfirst : Uses seat h frames h') (hthen : Uses seat h' frames' h'') :
    Uses seat h (frames ++ frames') h'' :=
  ⟨hthen.seated, hfirst.takes.trans hthen.takes⟩

end SessionHandler

open SessionHandler (Seated Uses)

/-- A handler that uses the transports of its sessions, and does nothing else to them. -/
class LawfulHandler (H : Type) [SessionHandler H] : Prop where
  onReady {h h' : H} {t : Transport} {seat : Seat} :
    SessionHandler.onReady h t = (.ok seat, h') →
      Seated h' seat ∧ ∃ frames, t.Takes frames (SessionHandler.transport h' seat)
  setTransport {h : H} {seat : Seat} (t : Transport) : Seated h seat →
    Seated (SessionHandler.setTransport h seat t) seat
  onFrame {h : H} {seat : Seat} (frame : Bytes) : Seated h seat →
    ∃ frames, Uses seat h frames (SessionHandler.onFrame h seat frame)
  onClosed {h : H} {seat : Seat} (reason : DisconnectReason) : Seated h seat →
    ∃ frames, Uses seat h frames (SessionHandler.onClosed h seat reason)

/-! ## Connections -/

namespace Connection

/-- A packet that is sent is at most one frame. -/
theorem takes_send (c : Connection C) (hub : Hub P) (packet : P) :
    ∃ frames, c.transport.Takes frames (c.send hub packet).2.1.transport := by
  unfold send
  split
  · exact ⟨[], .nothing _⟩
  · split
    · exact ⟨[], .nothing _⟩
    · dsimp only
      split
      · exact ⟨[], .nothing _⟩
      · exact ⟨_, (Transport.Takes.nothing _).submit _ ‹_›⟩

theorem transport_receive (c : Connection C) (hub : Hub P) (frame : Bytes) :
    (c.receive hub frame).2.1.transport = c.transport := by
  unfold receive
  dsimp only
  split <;> rfl

theorem takes_take (c : Connection C) (hub : Hub P) (frame : Bytes) :
    ∃ frames, c.transport.Takes frames (c.take hub frame).1.transport := by
  have hreceive := c.transport_receive hub frame
  unfold take
  split
  · rename_i heq
    rw [heq] at hreceive
    exact ⟨[], hreceive ▸ .nothing _⟩
  · rename_i heq
    rw [heq] at hreceive
    split
    · rw [← hreceive]
      exact takes_send ..
    · exact ⟨[], hreceive ▸ .nothing _⟩

end Connection

/-! ## Servers -/

namespace Server

theorem transport_of_get? {s : Server C P} {seat : Seat} {c : Connection C}
    (hc : s.roster.get? seat = some c) : SessionHandler.transport s seat = c.transport := by
  show ((s.roster.get? seat).map (·.transport)).getD {} = c.transport
  rw [hc]
  rfl

theorem get?_setTransport (s : Server C P) (seat : Seat) (transport : Transport) :
    (SessionHandler.setTransport s seat transport).roster.get? seat =
      (s.roster.get? seat).map fun c => { c with transport } :=
  List.getElem?_modify_eq (fun c : Connection C => { c with transport }) seat s.roster.connections

theorem seated_iff {s : Server C P} {seat : Seat} :
    Seated s seat ↔ ∃ c, s.roster.get? seat = some c := by
  have hthere (t : Transport) : SessionHandler.transport (SessionHandler.setTransport s seat t) seat =
      ((s.roster.get? seat).map fun _ => t).getD {} := by
    show (((SessionHandler.setTransport s seat t).roster.get? seat).map (·.transport)).getD {} = _
    rw [get?_setTransport, Option.map_map]
    rfl
  constructor
  · intro h
    cases hc : s.roster.get? seat with
    | some c => exact ⟨c, rfl⟩
    | none =>
      have hempty := (hthere (Transport.close {})).symm.trans (h (Transport.close {}))
      rw [hc] at hempty
      cases hempty
  · rintro ⟨c, hc⟩ t
    rw [hthere, hc]
    rfl

theorem uses_of_get? {s s' : Server C P} {seat : Seat} {c c' : Connection C} {frames : List Bytes}
    (hc : s.roster.get? seat = some c) (hc' : s'.roster.get? seat = some c')
    (h : c.transport.Takes frames c'.transport) : Uses seat s frames s' := by
  refine ⟨seated_iff.mpr ⟨c', hc'⟩, ?_⟩
  rw [transport_of_get? hc, transport_of_get? hc']
  exact h

theorem uses_onClosed {s : Server C P} {seat : Seat} {c : Connection C}
    (hc : s.roster.get? seat = some c) (reason : DisconnectReason) :
    Uses seat s [] (s.onClosed seat reason) := by
  unfold onClosed
  rw [hc]
  dsimp only [Connection.markInactive]
  split
  · exact .refl (seated_iff.mpr ⟨c, hc⟩)
  · rename_i heq
    obtain ⟨-, rfl⟩ := Prod.mk.inj heq
    exact uses_of_get? (s := s) hc (get?_set hc _) (.nothing _)

instance : LawfulHandler (Server C P) where
  onReady {s s' t seat} h := by
    have hresult : (s.onReady t).1 = .ok seat := congrArg Prod.fst h
    have hafter : (s.onReady t).2 = s' := congrArg Prod.snd h
    obtain ⟨c, haccount, -, htransport⟩ := account_onReady hresult
    rw [hafter] at haccount
    refine ⟨seated_iff.mpr ⟨c, haccount.connection⟩, [], ?_⟩
    rw [transport_of_get? haccount.connection, htransport]
    exact .nothing t
  setTransport {s seat} t h := by
    obtain ⟨c, hc⟩ := seated_iff.mp h
    exact seated_iff.mpr ⟨_, by rw [get?_setTransport, hc]; rfl⟩
  onFrame {s seat} frame h := by
    obtain ⟨c, hc⟩ := seated_iff.mp h
    cases hactive : c.active with
    | true =>
      obtain ⟨frames, htakes⟩ := c.takes_take s.hub frame
      have hroster := (onFrame_eq_take hc hactive frame).1
      have hafter : (s.onFrame seat frame).roster.get? seat = some (c.take s.hub frame).1 := by
        rw [hroster]
        exact get?_set hc _
      exact ⟨frames, uses_of_get? hc hafter htakes⟩
    | false =>
      have hsame : s.onFrame seat frame = s := by
        unfold Server.onFrame
        rw [hc]
        exact if_pos (by rw [hactive]; rfl)
      exact ⟨[], by rw [show SessionHandler.onFrame s seat frame = s from hsame]; exact .refl h⟩
  onClosed {s seat} reason h := by
    obtain ⟨c, hc⟩ := seated_iff.mp h
    exact ⟨[], uses_onClosed hc reason⟩

end Server

/-! ## Clients -/

namespace Client

theorem seated_iff {c : Client C P} {seat : Seat} :
    Seated c seat ↔ ∃ conn, c.connection = some conn := by
  obtain ⟨options, hub, context, connection, connected, closed, dispatcher, roundTrip, clock⟩ := c
  cases connection with
  | none =>
    refine iff_of_false (fun h => ?_) nofun
    cases h (Transport.close {})
  | some conn => exact iff_of_true (fun t => rfl) ⟨conn, rfl⟩

theorem uses_of_connection {c c' : Client C P} {seat : Seat} {conn conn' : Connection C}
    {frames : List Bytes} (hc : c.connection = some conn) (hc' : c'.connection = some conn')
    (h : conn.transport.Takes frames conn'.transport) : Uses seat c frames c' := by
  refine ⟨seated_iff.mpr ⟨conn', hc'⟩, ?_⟩
  have htransport {c : Client C P} {conn : Connection C} (hc : c.connection = some conn) :
      SessionHandler.transport c seat = conn.transport := by
    show (c.connection.map Connection.transport).getD {} = conn.transport
    rw [hc]
    rfl
  rw [htransport hc, htransport hc']
  exact h

theorem uses_onClosed {c : Client C P} {seat : Seat} {conn : Connection C}
    (hc : c.connection = some conn) (reason : DisconnectReason) :
    Uses seat c [] (c.onClosed reason) := by
  unfold onClosed
  rw [hc]
  dsimp only [Connection.markInactive]
  split
  · exact .refl (seated_iff.mpr ⟨conn, hc⟩)
  · rename_i heq
    obtain ⟨-, rfl⟩ := Prod.mk.inj heq
    exact uses_of_connection hc rfl (.nothing _)

instance : LawfulHandler (Client C P) where
  onReady {c c' t seat} h := by
    rw [show SessionHandler.onReady c t = c.onReady t from rfl, Client.onReady] at h
    split at h
    · cases h
    · split at h
      · cases h
      · obtain ⟨-, rfl⟩ := Prod.mk.inj h
        exact ⟨seated_iff.mpr ⟨_, rfl⟩, [], .nothing t⟩
  setTransport {c seat} t h := by
    obtain ⟨conn, hc⟩ := seated_iff.mp h
    have hafter : (SessionHandler.setTransport c seat t).connection =
        c.connection.map fun conn => { conn with transport := t } := rfl
    exact seated_iff.mpr ⟨_, by rw [hafter, hc]; rfl⟩
  onFrame {c seat} frame h := by
    obtain ⟨conn, hc⟩ := seated_iff.mp h
    have hreceive := conn.transport_receive c.hub frame
    refine ⟨[], ?_⟩
    show Uses seat c [] (c.onFrame frame)
    unfold Client.onFrame
    rw [hc]
    dsimp only
    split
    · exact .refl h
    · split <;> rename_i heq <;> rw [heq] at hreceive <;> dsimp only at hreceive
      · exact uses_of_connection hc rfl (hreceive ▸ .nothing _)
      · exact uses_of_connection hc rfl (hreceive ▸ .nothing _)
  onClosed {c seat} reason h := by
    obtain ⟨conn, hc⟩ := seated_iff.mp h
    exact ⟨[], uses_onClosed hc reason⟩

end Client

end ShardMesh
