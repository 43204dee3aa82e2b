import VirtualFirmware.Library.Arrivals
import VirtualFirmware.Messaging.Delivery

/-!
# What a `recvdata` call does, by what has arrived

A call first looks at the header and takes it only when the whole header has arrived and the
message fits. From then on it asks for the payload once, and the result of that call decides.
-/

namespace VirtualFirmware.Messaging

open Library

/-- The header has arrived, announces a message that fits, and is taken without failure. -/
def HeaderReady (length : UInt16) (s : Incoming) : Prop :=
  headerSize ≤ s.visible ∧ headerLength (s.unread.take headerSize) ≤ length ∧ s.pass.visible ≠ 0

instance (length : UInt16) (s : Incoming) : Decidable (HeaderReady length s) :=
  inferInstanceAs (Decidable (_ ∧ _ ∧ _))

/-- The stream once the header was looked at and taken. -/
def opened (s : Incoming) : Incoming := s.pass.pass.skip headerSize

/-- The result of a call that took the header `m`, by the result of its last receive call. -/
def payloadReply (data : Region) (length : UInt16) (m : List UInt8) (rc : Int)
    (payload : List UInt8) :
    Received :=
  if rc = 0 then { rc := -1, data := data.store payload, length, errno := some .ecanceled }
  else if rc < 0 then { rc := -1, data := data.store payload, length }
  else if rc ≠ (headerLength m).toNat then
    { rc := -1, data := data.store payload, length, errno := some .ecanceled }
  else { rc := 0, data := data.store payload, length := headerLength m,
         warned := decide (headerSum m ^^^ chksum (data.store payload) (headerLength m) ≠ 0) }

/-- A call that does not get the whole payload fails. -/
theorem payloadReply_short (data : Region) (length : UInt16) {m : List UInt8} {rc : Int}
    (h : rc ≠ (headerLength m).toNat) (payload : List UInt8) :
    (payloadReply data length m rc payload).rc = -1 := by
  unfold payloadReply
  rw [if_pos h]
  split
  · rfl
  · split <;> rfl

/-- A call that gets nothing fails. -/
theorem payloadReply_nothing (data : Region) (length : UInt16) (m payload : List UInt8) :
    (payloadReply data length m 0 payload).rc = -1 := by
  rw [payloadReply, if_pos rfl]

/-- A call that gets the whole payload succeeds. -/
theorem payloadReply_whole (data : Region) (length : UInt16) {m : List UInt8}
    (h : 0 < (headerLength m).toNat) (payload : List UInt8) :
    (payloadReply data length m (headerLength m).toNat payload).rc = 0 := by
  unfold payloadReply
  rw [if_neg (by omega), if_neg (by omega), if_neg (by simp)]

/-- Whatever the last receive call of `recvdata` returns is stored. -/
@[simp] theorem payloadReply_data (data : Region) (length : UInt16) (m : List UInt8) (rc : Int)
    (payload : List UInt8) : (payloadReply data length m rc payload).data = data.store payload := by
  unfold payloadReply
  split
  · rfl
  · split
    · rfl
    · split <;> rfl

section Calls

variable {s : Incoming} {length : UInt16}

/-- A call that finds its header ready takes it and then asks once for the payload. -/
theorem recvdata_of_ready (h : HeaderReady length s) (data : Region) :
    recvdata data length s =
      (Incoming.recv .take (headerLength (s.unread.take headerSize)).toNat (opened s)).map
        fun result =>
          (payloadReply data length (s.unread.take headerSize) result.1.1 result.1.2,
            result.2) := by
  obtain ⟨hheader, hfits, htaken⟩ := h
  have hseen : s.visible ≠ 0 := Nat.ne_of_gt (Nat.lt_of_lt_of_le (by decide) hheader)
  have hmore := Incoming.visible_le_pass hseen htaken
  have hpeek := Incoming.recv_peek_visible (by decide : 0 < headerSize) hseen
  have htake := Incoming.recv_take_visible (by decide : 0 < headerSize) htaken
  rw [Nat.min_eq_left hheader] at hpeek
  rw [Nat.min_eq_left (hheader.trans hmore)] at htake
  unfold recvdata
  rw [stateT_bind_of_some hpeek]
  dsimp only
  rw [if_neg (by decide), if_neg (by decide), if_neg (by simp), if_neg (UInt16.not_lt.mpr hfits),
    stateT_bind_of_some htake]
  dsimp only
  rw [if_neg (by decide), if_neg (by decide)]
  -- the checks after the last call only choose the result
  cases hpayload : Incoming.recv .take (headerLength (s.unread.take headerSize)).toNat
    (opened s) with
  | none => exact stateT_bind_of_none hpayload _
  | some result =>
    obtain ⟨⟨rc, payload⟩, final⟩ := result
    rw [show s.pass.pass.skip headerSize = opened s from rfl, stateT_bind_of_some hpayload]
    simp only [payloadReply, Option.map_some]
    split
    · rfl
    · split
      · rfl
      · split <;> rfl

/-- A call that does not find its header ready waits for the open connection, or fails without
taking or storing anything. -/
theorem recvdata_of_not_ready (h : ¬ HeaderReady length s) (data : Region) :
    (recvdata data length s = none ∧ s.unread = [] ∧ s.closed = false) ∨
      ∃ received s', recvdata data length s = some (received, s') ∧ received.rc = -1 ∧
        received.data = data ∧ s'.unread = s.unread ∧ s'.closed = s.closed := by
  have hsize : 0 < headerSize := by decide
  unfold recvdata
  by_cases hne : s.unread = []
  · obtain ⟨hwaits, hopen⟩ | ⟨rc, s', hpeek, hrc, hunread, hclosed⟩ :=
      Incoming.recv_nil .peek headerSize hne
    · exact .inl ⟨stateT_bind_of_none hwaits _, hne, hopen⟩
    rw [stateT_bind_of_some hpeek]
    dsimp only
    refine .inr ?_
    by_cases hzero : rc = 0
    · rw [if_pos hzero]
      exact ⟨_, _, rfl, rfl, rfl, hunread.trans hne.symm, hclosed⟩
    · rw [if_neg hzero, if_pos (by omega)]
      exact ⟨_, _, rfl, rfl, rfl, hunread.trans hne.symm, hclosed⟩
  refine .inr ?_
  by_cases hseen : s.visible = 0
  · rw [stateT_bind_of_some (Incoming.recv_of_not_visible .peek hsize hne hseen)]
    exact ⟨_, _, rfl, rfl, rfl, s.pass_unread, s.pass_closed⟩
  rw [stateT_bind_of_some (Incoming.recv_peek_visible hsize hseen)]
  dsimp only
  rw [if_neg (by omega), if_neg (by omega)]
  by_cases hheader : headerSize ≤ s.visible
  · rw [Nat.min_eq_left hheader, if_neg (by simp)]
    by_cases hfits : headerLength (s.unread.take headerSize) ≤ length
    · -- the header is there and the message fits, so taking it must have failed
      have hfailed : s.pass.visible = 0 := by
        by_contra htaken
        exact h ⟨hheader, hfits, htaken⟩
      have hne' : s.pass.unread ≠ [] := by rwa [s.pass_unread]
      rw [if_neg (UInt16.not_lt.mpr hfits),
        stateT_bind_of_some (Incoming.recv_of_not_visible .take hsize hne' hfailed)]
      refine ⟨_, _, rfl, rfl, rfl, ?_, ?_⟩
      · rw [Incoming.pass_unread, Incoming.pass_unread]
      · rw [Incoming.pass_closed, Incoming.pass_closed]
    · rw [if_pos (UInt16.not_le.mp hfits)]
      exact ⟨_, _, rfl, rfl, rfl, s.pass_unread, s.pass_closed⟩
  · rw [if_pos (by omega)]
    exact ⟨_, _, rfl, rfl, rfl, s.pass_unread, s.pass_closed⟩

/-- On a closed connection every call returns, and a call that finds its header ready takes it. -/
theorem recvdata_closed (hclosed : s.closed = true) (data : Region) (length : UInt16) :
    ∃ received s', recvdata data length s = some (received, s') ∧ s'.closed = true ∧
      s'.unread.length ≤ s.unread.length ∧
      (HeaderReady length s → s'.unread.length < s.unread.length) := by
  by_cases hready : HeaderReady length s
  · have hopened : (opened s).closed = true := by
      rw [opened, Incoming.skip, Incoming.pass_closed, Incoming.pass_closed, hclosed]
    have hheader : headerSize ≤ s.unread.length := hready.1.trans s.visible_le
    have hshorter : (opened s).unread.length = s.unread.length - headerSize := by
      rw [opened, Incoming.skip, Incoming.pass_unread, Incoming.pass_unread, List.length_drop]
    obtain ⟨rc, payload, s', hrecv, hclosed', hle⟩ := Incoming.recv_closed hopened .take
      (headerLength (s.unread.take headerSize)).toNat
    rw [headerSize] at hheader hshorter
    exact ⟨_, s', by rw [recvdata_of_ready hready, hrecv]; rfl, hclosed', by omega,
      fun _ => by omega⟩
  · obtain ⟨-, -, hopen⟩ | ⟨received, s', hcall, -, -, hunread, hclosed'⟩ :=
      recvdata_of_not_ready hready data
    · rw [hclosed] at hopen
      contradiction
    · exact ⟨received, s', hcall, hclosed'.trans hclosed, Nat.le_of_eq (by rw [hunread]),
        fun h => absurd h hready⟩

end Calls

/-- The payload of the first frame, which the call accepts, and the stream behind it. -/
structure Takes (length : UInt16) (s : Incoming) (payload : List UInt8) (s' : Incoming) : Prop where
  ready : HeaderReady length s
  recv : Incoming.recv .take (headerLength (s.unread.take headerSize)).toNat (opened s) =
    some ((((headerLength (s.unread.take headerSize)).toNat : Int), payload), s')
  nonempty : 0 < (headerLength (s.unread.take headerSize)).toNat

/-- The payload has the length its header says, which fits. -/
theorem Takes.length_eq {length : UInt16} {s s' : Incoming} {payload : List UInt8}
    (h : Takes length s payload s') :
    payload.length = (headerLength (s.unread.take headerSize)).toNat ∧
      payload.length ≤ length.toNat := by
  have hfits := UInt16.le_iff_toNat_le.mp h.ready.2.1
  obtain ⟨hnever, -⟩ | ⟨hlength, -⟩ := Incoming.recv_cases h.nonempty h.recv
  · omega
  · have hlength := Int.natCast_inj.mp hlength
    exact ⟨hlength.symm, hlength ▸ hfits⟩

/-- The call stores the payload and succeeds. -/
theorem Takes.recvdata {length : UInt16} {s s' : Incoming} {payload : List UInt8}
    (h : Takes length s payload s') (data : Region) :
    ∃ received, Messaging.recvdata data length s = some (received, s') ∧ received.rc = 0 ∧
      received.data = data.store payload := by
  refine ⟨_, by rw [recvdata_of_ready h.ready, h.recv]; rfl,
    payloadReply_whole _ _ h.nonempty _, ?_⟩
  exact payloadReply_data _ _ _ _ _

/-- When everything has arrived, a call takes the payload of the first frame if it fits. -/
theorem takes_prompt {s : Incoming} (hprompt : s.Prompt) {frame : Frame} {rest : List UInt8}
    (hunread : s.unread = frame.bytes ++ rest) {length : UInt16}
    (hfits : frame.message.length ≤ length) :
    Takes length s frame.message.payload { s with unread := rest, arrived := rest.length } := by
  obtain ⟨unread, arrived, schedule, closed⟩ := s
  obtain rfl : schedule = [] := hprompt
  obtain rfl : unread = frame.bytes ++ rest := hunread
  have hheader : (frame.bytes ++ rest).take headerSize =
      headerBytes frame.pad frame.message.length frame.sum := by
    rw [Frame.bytes, List.append_assoc, List.take_left' (headerBytes_length _ _ _)]
  have hopened : opened ⟨frame.bytes ++ rest, arrived, [], closed⟩ =
      ⟨frame.message.payload ++ rest, (frame.bytes ++ rest).length - headerSize, [], closed⟩ := by
    rw [opened, Incoming.skip]
    simp only [Incoming.pass_unread, Incoming.pass_closed, Frame.bytes, List.append_assoc,
      List.drop_left' (headerBytes_length _ _ _)]
    rfl
  have hlong : headerSize ≤ (frame.bytes ++ rest).length := by
    rw [List.length_append, Frame.bytes_length]
    omega
  have hpos : 0 < (headerLength ((frame.bytes ++ rest).take headerSize)).toNat := by
    rw [hheader, headerLength_headerBytes, Message.length_toNat]
    exact frame.message.nonempty
  refine ⟨⟨hlong, ?_, ?_⟩, ?_, hpos⟩
  · simp only [hheader, headerLength_headerBytes]
    exact hfits
  · exact Nat.ne_of_gt (Nat.lt_of_lt_of_le (by decide) hlong)
  · simp only [hheader, headerLength_headerBytes, Message.length_toNat, hopened]
    exact Incoming.recv_take_front (by exact rfl) _ _ frame.message.nonempty rfl

/-- Every call that succeeds takes a payload. -/
theorem takes_of_recvdata {data : Region} {length : UInt16} {s s' : Incoming} {received : Received}
    (h : Messaging.recvdata data length s = some (received, s')) (hrc : ¬ received.rc < 0) :
    ∃ payload, Takes length s payload s' := by
  by_cases hready : HeaderReady length s
  · rw [recvdata_of_ready hready, Option.map_eq_some_iff] at h
    obtain ⟨⟨⟨rc, payload⟩, final⟩, hrecv, hreply⟩ := h
    cases hreply
    by_cases hwhole : rc = (headerLength (s.unread.take headerSize)).toNat
    · subst hwhole
      refine ⟨payload, hready, hrecv, Nat.pos_of_ne_zero fun hzero => hrc ?_⟩
      have hfailed := payloadReply_nothing data length (s.unread.take headerSize) payload
      rw [← Int.natCast_zero, ← hzero] at hfailed
      exact hfailed ▸ (by decide : (-1 : Int) < 0)
    · exact absurd ((payloadReply_short data length hwhole payload) ▸ (by decide : (-1 : Int) < 0))
        hrc
  · obtain ⟨hwaits, -⟩ | ⟨received', s'', hcall, hfailed, -⟩ := recvdata_of_not_ready hready data
    · rw [hwaits] at h
      contradiction
    · rw [hcall] at h
      cases h
      omega

end VirtualFirmware.Messaging
