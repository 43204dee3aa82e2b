import VirtualFirmware.Firmware.Replies

/-!
# What the firmware's answer depends on

A request is the frame of a descriptor, possibly shorter than the structure, and the frame of
its data. The answer's descriptor frame is a function of the request alone. Whether the thread
waits for data, and whether it sends the data back, also depends on `echobuf` and on what the
last descriptor left behind a frame that is shorter than the structure.
-/

namespace VirtualFirmware.Firmware

open Library Messaging Adminq

/-- The data length a descriptor's frame announces; a frame that ends before the field announces
no data. -/
def announcedDatalen (payload : List UInt8) : UInt16 :=
  if 6 ≤ payload.length then UInt16.ofNat (AqDesc.fieldAt payload 4 2) else 0

/-- A request: the frame of a descriptor and, exactly if it announces data, a frame of data that
is no longer than announced nor than the thread's buffer. -/
structure Request where
  desc : Frame
  data : Option Frame
  short : desc.message.payload.length ≤ AqDesc.size
  announced : match data with
    | none => announcedDatalen desc.message.payload = 0
    | some frame => frame.message.length ≤ announcedDatalen desc.message.payload ∧
        frame.message.payload.length ≤ datSize

namespace Request

variable (request : Request)

/-- The frames of a request, in the order they are sent. -/
def frames : List Frame := request.desc :: request.data.toList

/-- The descriptor in the thread's memory once the frame is received. -/
def descIn (locals : Locals) : AqDesc := locals.desc.overlay request.desc.message.payload

/-- The request, and nothing else yet, is there to be received whole; what the thread sends is
accepted. -/
structure Offered (s : Socket) : Prop where
  receiver : s.incoming.Prompt
  connected : s.incoming.closed = false
  unread : s.incoming.unread = wire request.frames
  sender : s.outgoing.Prompt

/-- The thread goes on to send the data back. -/
def Echoed (locals : Locals) : Prop := echoes locals.echobuf (request.descIn locals) = true

instance (locals : Locals) : Decidable (request.Echoed locals) :=
  inferInstanceAs (Decidable (_ = _))

/-- The thread waits for data that is not part of the request. -/
def Starves (locals : Locals) : Prop := request.data = none ∧ (request.descIn locals).datalen ≠ 0

instance (locals : Locals) : Decidable (request.Starves locals) :=
  decidable_of_iff (request.data.isNone = true ∧ (request.descIn locals).datalen ≠ 0)
    (by simp [Starves])

/-- The answer's descriptor frame. -/
def descReply (locals : Locals) : List UInt8 :=
  (respond (request.descIn locals)).toRegion.load request.desc.message.payload.length

/-- The payloads the thread answers the request with. -/
def answer (locals : Locals) : List (List UInt8) :=
  if request.Starves locals then []
  else request.descReply locals ::
    if request.Echoed locals then request.data.toList.map (·.message.payload) else []

/-- What the last requests left behind makes no difference to this one: the thread waits for data
in both cases or in none, and sends the data back in both cases or in none. -/
def Alike (left right : Locals) : Prop :=
  (request.Starves left ↔ request.Starves right) ∧
    (request.data = none ∨ (request.Echoed left ↔ request.Echoed right))

instance (left right : Locals) : Decidable (request.Alike left right) :=
  decidable_of_iff ((request.Starves left ↔ request.Starves right) ∧
    (request.data.isNone = true ∨ (request.Echoed left ↔ request.Echoed right))) (by simp [Alike])

variable {request}

/-- A frame that reaches the data length sets it. -/
theorem descIn_datalen (locals : Locals) (h : 6 ≤ request.desc.message.payload.length) :
    (request.descIn locals).datalen = announcedDatalen request.desc.message.payload := by
  have hfront : (request.descIn locals).bytes.take request.desc.message.payload.length =
      request.desc.message.payload.take request.desc.message.payload.length := by
    rw [descIn, AqDesc.take_overlay_bytes locals.desc request.short, List.take_length]
  rw [announcedDatalen, if_pos h, AqDesc.datalen_eq, AqDesc.fieldAt_congr hfront h]

/-- A request with data announces it, so the thread receives it. -/
theorem descIn_datalen_of_data (locals : Locals) {frame : Frame}
    (hdata : request.data = some frame) :
    frame.message.length ≤ (request.descIn locals).datalen ∧
      (request.descIn locals).datalen ≠ 0 := by
  have hannounced := request.announced
  simp only [hdata] at hannounced
  have hpos := frame.message.nonempty
  have hle := UInt16.le_iff_toNat_le.mp hannounced.1
  rw [Message.length_toNat] at hle
  have hlong : 6 ≤ request.desc.message.payload.length := by
    by_contra hshort
    rw [announcedDatalen, if_neg hshort] at hle
    exact absurd (hpos.trans_le hle) (by decide)
  rw [descIn_datalen locals hlong]
  refine ⟨hannounced.1, ?_⟩
  intro hzero
  rw [hzero] at hle
  exact absurd (hpos.trans_le hle) (by decide)

/-- The answer's descriptor frame is the front of the answered descriptor. -/
theorem descReply_eq (locals : Locals) : request.descReply locals =
    (respond (request.descIn locals)).bytes.take request.desc.message.payload.length := by
  rw [descReply, ← AqDesc.toRegion_load, Region.take_load _ request.short]

/-- The answer's descriptor frame does not depend on what was left behind. -/
theorem descReply_congr (left right : Locals) :
    request.descReply left = request.descReply right := by
  rw [descReply_eq, descReply_eq]
  apply respond_front
  rw [descIn, descIn, AqDesc.take_overlay_bytes _ request.short,
    AqDesc.take_overlay_bytes _ request.short]

/-- The answers agree exactly if what was left behind makes no difference. -/
theorem answer_eq_iff (left right : Locals) :
    request.answer left = request.answer right ↔ request.Alike left right := by
  unfold answer Alike
  rw [descReply_congr left right]
  by_cases hleft : request.Starves left <;> by_cases hright : request.Starves right
  · simp [hleft, hright, hleft.1]
  · simp [hleft, hright]
  · simp [hleft, hright]
  · cases hdata : request.data with
    | none => simp [hleft, hright]
    | some frame =>
      by_cases hl : request.Echoed left <;> by_cases hr : request.Echoed right <;>
        simp [hleft, hright, hl, hr]

variable {s : Socket}

/-- A round on an offered request receives the descriptor over the last one. -/
theorem Offered.round (h : request.Offered s) (locals : Locals) :
    (t0EntryRound locals).reached Socket.call s =
      (recvBuffer { locals with desc := request.descIn locals } request.desc.message.length).reached
        Socket.call { s with incoming := { s.incoming with
          unread := wire request.data.toList
          arrived := (wire request.data.toList).length } } := by
  have hfits : request.desc.message.length ≤ UInt16.ofNat AqDesc.size := by
    rw [UInt16.le_iff_toNat_le, Message.length_toNat]
    exact request.short
  rw [t0EntryRound_eq, recvdata_reached (recvdata_fits h.receiver h.unread _ hfits)]
  rfl

/-- A round on an offered request sends the request's answer. -/
theorem Offered.round_sent (h : request.Offered s) (locals : Locals) :
    ((t0EntryRound locals).reached Socket.call s).sent = s.sent ++ request.answer locals := by
  have hpos : 0 < request.desc.message.length := by
    rw [UInt16.lt_iff_toNat_lt, Message.length_toNat]
    exact request.desc.message.nonempty
  rw [h.round, answer, descReply, ← Message.length_toNat]
  cases hdata : request.data with
  | none =>
    by_cases hzero : (request.descIn locals).datalen = 0
    · have hfed : ¬ request.Starves locals := fun hstarves => hstarves.2 hzero
      rw [recvBuffer_sent_empty (by exact h.sender) hpos hzero, if_neg hfed]
      simp
    · rw [recvBuffer_sent_missing (by exact h.receiver) (by exact h.connected) rfl _ hzero,
        if_pos ⟨hdata, hzero⟩, List.append_nil]
  | some frame =>
    have hfed : ¬ request.Starves locals := fun hstarves => by
      have hnone := hstarves.1
      rw [hdata] at hnone
      contradiction
    obtain ⟨hfits, hdatalen⟩ := descIn_datalen_of_data locals hdata
    rw [recvBuffer_sent_data (by exact h.receiver) (by exact h.sender) rfl hpos hfits hdatalen,
      if_neg hfed]
    rfl

/-- A thread that is offered a request answers it. -/
theorem Offered.replies {w : LoopState} (h : request.Offered w.socket) :
    w.replies = request.answer w.locals := by
  rw [LoopState.replies, h.round_sent, List.drop_left]

end Request

/-- Two threads that are offered the same request answer alike exactly if what the earlier
requests left in their variables makes no difference to this one. -/
theorem replies_eq_iff_alike (request : Request) (left right : LoopState)
    (hleft : request.Offered left.socket) (hright : request.Offered right.socket) :
    left.replies = right.replies ↔ request.Alike left.locals right.locals := by
  rw [hleft.replies, hright.replies, Request.answer_eq_iff]

/-- A thread that starts on a prompt connection with these frames to receive. -/
def enter (frames : List Frame) : LoopState where
  locals := ⟨command 0 0, fun _ => 0, false⟩
  socket := ⟨Incoming.whole (wire frames), Outgoing.fresh, fun _ => (0, 0), []⟩

/-- The frame of a whole descriptor announces its data length. -/
theorem announcedDatalen_bytes (desc : AqDesc) : announcedDatalen desc.bytes = desc.datalen := by
  have hlength : 6 ≤ desc.bytes.length := by rw [AqDesc.bytes_length]; decide
  rw [announcedDatalen, if_pos hlength, AqDesc.datalen_eq]

/-- A request for the version that carries four bytes of data. -/
def versionRequest : Request where
  desc := descFrame (command 1 4)
  data := some ⟨⟨[1, 2, 3, 4], by simp, by simp⟩, (0, 0), 0⟩
  short := by rw [descFrame, sentFrame, descMessage, AqDesc.bytes_length]
  announced := by
    rw [descFrame, sentFrame, descMessage, announcedDatalen_bytes]
    exact ⟨UInt16.le_refl 4, Nat.le_of_ble_eq_true rfl⟩

/-- A thread in whose memory a heartbeat's descriptor and data are left answers the request as one
that starts with its memory cleared. -/
theorem replies_eq_after_heartbeat :
    (enter versionRequest.frames).replies =
      LoopState.replies ⟨⟨command 2 7, fun _ => 9, false⟩, (enter versionRequest.frames).socket⟩ :=
  (replies_eq_iff_alike versionRequest (enter versionRequest.frames)
    ⟨⟨command 2 7, fun _ => 9, false⟩, (enter versionRequest.frames).socket⟩
    ⟨rfl, rfl, rfl, rfl⟩ ⟨rfl, rfl, rfl, rfl⟩).mpr (by decide +kernel)

/-- An echo without data makes the thread send back the data of the next request, although that
one only asks for the version. -/
theorem replies_after_empty_echo : ∃ left right : LoopState, Served left ∧ Served right ∧
    versionRequest.Offered left.socket ∧ versionRequest.Offered right.socket ∧
      left.replies ≠ right.replies := by
  let start := enter (descFrame (command 3 0) :: versionRequest.frames)
  -- the echo has been answered and only `echobuf` remembers it
  have hecho : start.round.map (fun result => (result.1.map Locals.echobuf, result.2.incoming,
      result.2.outgoing.schedule)) =
        some (some true, Incoming.whole (wire versionRequest.frames), []) := by
    decide +kernel
  obtain ⟨⟨locals, socket⟩, hround, hstate⟩ := Option.map_eq_some_iff.mp hecho
  simp only [Prod.mk.injEq, Option.map_eq_some_iff] at hstate
  obtain ⟨⟨locals, rfl, hechobuf⟩, hincoming, hschedule⟩ := hstate
  have hoffered : versionRequest.Offered socket :=
    ⟨by rw [hincoming]; rfl, by rw [hincoming]; rfl, by rw [hincoming]; rfl, hschedule⟩
  have hfresh : versionRequest.Offered (enter versionRequest.frames).socket := ⟨rfl, rfl, rfl, rfl⟩
  refine ⟨enter versionRequest.frames, ⟨locals, socket⟩, .enter rfl rfl,
    .round (.enter (w := start) rfl rfl) hround, hfresh, hoffered, ?_⟩
  rw [hfresh.replies, hoffered.replies, Ne, Request.answer_eq_iff]
  rintro ⟨-, hnone | hboth⟩
  · exact Option.some_ne_none _ hnone
  · have hright : versionRequest.Echoed locals := by simp [Request.Echoed, echoes, hechobuf]
    exact absurd (hboth.mpr hright) (by decide +kernel)

end VirtualFirmware.Firmware
