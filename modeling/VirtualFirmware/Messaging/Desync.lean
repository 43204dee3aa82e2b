import VirtualFirmware.Messaging.Outcomes
import VirtualFirmware.Messaging.Reception

/-!
# Where a failed `recvdata` leaves the stream

A call that has taken the header asks for the payload once: if less than the payload has
arrived the call fails with the header and a part of the payload gone. Every other failure
leaves the stream as it was.
-/

namespace VirtualFirmware.Messaging

open Library

/-- The stream stands before a frame that was sent, so later calls return what was sent: a call
that succeeds returns the payload of such a frame, and a call does succeed once everything has
arrived and the frame fits. -/
structure InStep (frames : List Frame) (s : Incoming) : Prop where
  boundary : ∃ rest, rest <:+ frames ∧ s.unread = wire rest
  sound : ∀ data length received s', recvdata data length s = some (received, s') →
    received.rc = 0 →
    ∃ frame ∈ frames, received.data = data.store frame.message.payload ∧
      received.length = frame.message.length
  returns : s.unread ≠ [] → ∃ frame ∈ frames, ∀ data length, frame.message.length ≤ length →
    ∃ received s', recvdata data length { s with schedule := [] } = some (received, s') ∧
      received.rc = 0 ∧ received.data = data.store frame.message.payload ∧
      received.length = frame.message.length

/-- The first frame fits and its header is taken, but only a part of its payload has arrived when
it is asked for. -/
def CutShort (length : UInt16) (s : Incoming) : Prop :=
  HeaderReady length s ∧ (opened s).visible < (headerLength (s.unread.take headerSize)).toNat

instance (length : UInt16) (s : Incoming) : Decidable (CutShort length s) :=
  inferInstanceAs (Decidable (_ ∧ _))

section Frames

variable {frames : List Frame} {s : Incoming}

/-- A stream that stands before one of the frames is in step with them. -/
theorem InStep.of_boundary {rest : List Frame} (hrest : rest <:+ frames)
    (hunread : s.unread = wire rest) :
    InStep frames s where
  boundary := ⟨rest, hrest, hunread⟩
  sound data length received s' hcall hrc := by
    obtain hfailed | haccepted := recvdata_cases hcall
    · omega
    obtain ⟨frame, others, rfl, hdata, hlength, -⟩ :=
      haccepted.first_frame (hunread ▸ List.prefix_rfl : s.unread <+: wire rest)
    exact ⟨frame, hrest.subset List.mem_cons_self, hdata, hlength⟩
  returns hne := by
    cases rest with
    | nil => exact absurd hunread hne
    | cons frame others =>
      refine ⟨frame, hrest.subset List.mem_cons_self, ?_⟩
      intro data length hfits
      exact ⟨_, _, recvdata_fits (s := { s with schedule := [] }) rfl hunread data hfits,
        rfl, rfl, rfl⟩

/-- The frames after the first take less room in the stream. -/
theorem wire_length_le {rest frames : List Frame} (h : rest <:+ frames) :
    (wire rest).length ≤ (wire frames).length := by
  obtain ⟨front, rfl⟩ := h
  rw [wire_append, List.length_append]
  exact Nat.le_add_left _ _

/-- The unread bytes of a frame whose header and a proper part of its payload were taken are not
those of a sequence of frames. -/
theorem not_boundary_of_cut {frame : Frame} {others rest : List Frame} {count : ℕ}
    (hcount : count < frame.message.payload.length) (hrest : rest <:+ frame :: others) :
    (frame.message.payload ++ wire others).drop count ≠ wire rest := by
  intro hsame
  have hlength := congrArg List.length hsame
  rw [List.length_drop, List.length_append] at hlength
  rcases List.suffix_cons_iff.mp hrest with rfl | hothers
  · rw [wire_cons, List.length_append, Frame.bytes_length, headerSize] at hlength
    omega
  · have hle := wire_length_le hothers
    omega

/-- A header that is ready is the first frame's, and its payload follows. -/
theorem HeaderReady.first_frame {length : UInt16} (h : HeaderReady length s)
    (hunread : s.unread = wire frames) :
    ∃ frame others, frames = frame :: others ∧
      headerLength (s.unread.take headerSize) = frame.message.length ∧
      (opened s).unread = frame.message.payload ++ wire others := by
  have hlen : (s.unread.take headerSize).length = headerSize := by
    rw [List.length_take, Nat.min_eq_left (h.1.trans s.visible_le)]
  have hfront : s.unread.take headerSize <+: wire frames := by
    rw [← hunread]
    exact List.take_prefix _ _
  obtain ⟨frame, others, rfl, hheader⟩ := header_of_front hlen hfront
  refine ⟨frame, others, rfl, by rw [hheader, headerLength_headerBytes], ?_⟩
  rw [opened, Incoming.skip, Incoming.pass_unread, Incoming.pass_unread, hunread, wire_cons,
    Frame.bytes, List.append_assoc, List.drop_left' (headerBytes_length _ _ _)]

/-- A call that is cut short fails in the middle of the first frame. -/
theorem recvdata_of_cutShort {length : UInt16} (h : CutShort length s)
    (hunread : s.unread = wire frames) (data : Region) :
    ∃ received s', recvdata data length s = some (received, s') ∧ received.rc = -1 ∧
      ¬ ∃ rest, rest <:+ frames ∧ s'.unread = wire rest := by
  obtain ⟨hready, hcut⟩ := h
  obtain ⟨frame, others, rfl, hlength, hopened⟩ := hready.first_frame hunread
  have hpos : 0 < frame.message.payload.length := frame.message.nonempty
  have hne : (opened s).unread ≠ [] := by
    rw [hopened]
    exact List.append_ne_nil_of_left_ne_nil (List.ne_nil_of_length_pos hpos) _
  rw [hlength, Message.length_toNat] at hcut
  rw [recvdata_of_ready hready data, hlength, Message.length_toNat]
  by_cases hnone : (opened s).visible = 0
  · rw [Incoming.recv_of_not_visible .take hpos hne hnone]
    refine ⟨_, _, rfl, rfl, ?_⟩
    rintro ⟨rest, hrest, hboundary⟩
    rw [Incoming.pass_unread, hopened] at hboundary
    exact not_boundary_of_cut hpos hrest hboundary
  · rw [Incoming.recv_take_visible hpos hnone, Nat.min_eq_right hcut.le]
    refine ⟨_, _, rfl, ?_, ?_⟩
    · apply payloadReply_short
      rw [hlength, Message.length_toNat]
      exact Int.natCast_inj.not.mpr hcut.ne
    · rintro ⟨rest, hrest, hboundary⟩
      rw [Incoming.skip, Incoming.pass_unread, hopened] at hboundary
      exact not_boundary_of_cut hcut hrest hboundary

/-- A failed call leaves the stream before a frame, unless the call was cut short. -/
theorem recvdata_inStep_iff (hunread : s.unread = wire frames) (data : Region) (length : UInt16) :
    (∀ received s', recvdata data length s = some (received, s') → received.rc = -1 →
      InStep frames s') ↔
      ¬ CutShort length s := by
  constructor
  · intro hall hcut
    obtain ⟨received, s', hcall, hrc, hbetween⟩ := recvdata_of_cutShort hcut hunread data
    exact hbetween (hall received s' hcall hrc).boundary
  · intro hcut received s' hcall hrc
    by_cases hready : HeaderReady length s
    · -- the whole payload has arrived, so the call succeeds
      have hwhole : (headerLength (s.unread.take headerSize)).toNat ≤ (opened s).visible := by
        by_contra hpart
        exact hcut ⟨hready, Nat.lt_of_not_le hpart⟩
      obtain ⟨frame, others, rfl, hlength, -⟩ := hready.first_frame hunread
      have hpos : 0 < (headerLength (s.unread.take headerSize)).toNat := by
        rw [hlength, Message.length_toNat]
        exact frame.message.nonempty
      rw [recvdata_of_ready hready data, Incoming.recv_take_visible hpos (by omega),
        Nat.min_eq_left hwhole] at hcall
      cases hcall
      rw [payloadReply_whole data length hpos] at hrc
      contradiction
    · obtain ⟨hwaits, -⟩ | ⟨received', s'', hcall', -, -, hkept, -⟩ :=
        recvdata_of_not_ready hready data
      · rw [hwaits] at hcall
        contradiction
      · rw [hcall'] at hcall
        cases hcall
        exact .of_boundary List.suffix_rfl (hkept.trans hunread)

end Frames

/-- A frame whose payload looks, from its second byte on, like a frame with the payload 42. -/
def nestedFrame : Frame := ⟨⟨[7, 0, 1, 0, 0, 0, 0, 0, 0, 42], by decide, by decide⟩, (0, 0), 0⟩

/-- The frame's bytes, arriving with the given counts. -/
def nestedStream (counts : List ℕ) : Incoming := ⟨nestedFrame.bytes, 0, counts.map .bytes, false⟩

/-- A header that arrives alone leaves the stream before its frame. -/
theorem recvdata_inStep_header : (nestedStream [5]).unread = wire [nestedFrame] ∧
    ∀ received s', recvdata (fun _ => 0) 64 (nestedStream [5]) = some (received, s') →
      received.rc = -1 → InStep [nestedFrame] s' := by
  have hunread : (nestedStream [5]).unread = wire [nestedFrame] := by simp [nestedStream]
  exact ⟨hunread, (recvdata_inStep_iff hunread _ 64).mpr (by decide +kernel)⟩

/-- When the header and one byte of the payload have arrived the call fails between two frames, and
the next call returns a payload that was never sent. -/
theorem recvdata_returns_unsent : ∃ received s' received' s'',
    recvdata (fun _ => 0) 64 (nestedStream [8, 0, 1]) = some (received, s') ∧ received.rc = -1 ∧
      ¬ (∃ rest, rest <:+ [nestedFrame] ∧ s'.unread = wire rest) ∧
      recvdata (fun _ => 0) 64 s' = some (received', s'') ∧ received'.rc = 0 ∧
      received'.length = 1 ∧ received'.data.load 1 = [42] := by
  refine ⟨_, _, _, _, rfl, rfl, ?_, rfl, rfl, rfl, rfl⟩
  rintro ⟨rest, hrest, hunread⟩
  exact not_boundary_of_cut (by decide : 1 < nestedFrame.message.payload.length) hrest hunread

end VirtualFirmware.Messaging
