import VirtualFirmware.Messaging.Outcomes

/-!
# Corrupted messages

`recvdata` computes the checksum of what it received and compares it with the sum in the header, but
the comparison only decides whether it warns. A message that arrives whole is delivered as a
success, whatever happened to its payload.
-/

namespace VirtualFirmware.Messaging

open Library

section Taken

variable {length : UInt16} {s s' : Incoming} {payload : List UInt8}

/-- The call that takes a payload succeeds; the checksum decides only about the warning. -/
theorem Takes.recvdata_eq (h : Takes length s payload s') (data : Region) :
    Messaging.recvdata data length s =
      some ({ rc := 0, data := data.store payload,
              length := headerLength (s.unread.take headerSize),
              warned := decide (headerSum (s.unread.take headerSize) ^^^
                chksum (data.store payload) (headerLength (s.unread.take headerSize)) ≠ 0) },
            s') := by
  have hpos := h.nonempty
  rw [recvdata_of_ready h.ready, h.recv, Option.map_some]
  dsimp only [payloadReply]
  rw [if_neg (by omega), if_neg (by omega), if_neg (by simp)]

/-- The payload taken from a stream that starts with a frame is that of the frame. -/
theorem Takes.payload_eq (h : Takes length s payload s') {frame : Frame} {rest : List UInt8}
    (hunread : s.unread = frame.bytes ++ rest) :
    s.unread.take headerSize = headerBytes frame.pad frame.message.length frame.sum ∧
      payload = frame.message.payload := by
  have hheader : s.unread.take headerSize =
      headerBytes frame.pad frame.message.length frame.sum := by
    rw [hunread, Frame.bytes, List.append_assoc, List.take_left' (headerBytes_length _ _ _)]
  refine ⟨hheader, ?_⟩
  have hlength := h.length_eq.1
  rw [hheader, headerLength_headerBytes, Message.length_toNat] at hlength
  have hopened : (opened s).unread = frame.message.payload ++ rest := by
    rw [opened, Incoming.skip, Incoming.pass_unread, Incoming.pass_unread, hunread, Frame.bytes,
      List.append_assoc, List.drop_left' (headerBytes_length _ _ _)]
  obtain ⟨hnever, -⟩ | ⟨-, -, hfront, -⟩ := Incoming.recv_cases h.nonempty h.recv
  · omega
  rw [hopened] at hfront
  exact (List.prefix_of_prefix_length_le hfront (List.prefix_append _ _) hlength.le).eq_of_length
    hlength

end Taken

/-- A frame whose payload a burst changed on the way. -/
structure Frame.Altered (frame altered : Frame) : Prop where
  pad : altered.pad = frame.pad
  sum : altered.sum = frame.sum
  length : altered.message.payload.length = frame.message.payload.length
  burst : ∃ order, Burst order frame.message.payload.length (Region.ofBytes frame.message.payload)
    (Region.ofBytes altered.message.payload)

/-- The stream starts with a message of `senddata` whose payload a burst changed, and it fits the
buffer. -/
def StartsAltered (length : UInt16) (s : Incoming) : Prop :=
  ∃ pad source message altered rest, source.load message.payload.length = message.payload ∧
    (sentFrame pad source message).Altered altered ∧ message.length ≤ length ∧
    s.unread = altered.bytes ++ rest

/-- A call delivers only what agrees with the sum in the header, so no message that a burst
changed. -/
structure CorruptionCaught (data : Region) (length : UInt16) (s : Incoming) : Prop where
  verified : ∀ received s', recvdata data length s = some (received, s') → received.rc = 0 →
    chksum received.data received.length = headerSum (s.unread.take headerSize)
  rejected : StartsAltered length s → ∀ received s', recvdata data length s = some (received, s') →
    received.rc ≠ 0

/-- A message arrives whole whose payload does not agree with the sum in its header. -/
def ArrivesMismatched (data : Region) (length : UInt16) (s : Incoming) : Prop :=
  ∃ payload s', Takes length s payload s' ∧
    chksum (data.store payload) (headerLength (s.unread.take headerSize)) ≠
      headerSum (s.unread.take headerSize)

/-- The payload that a burst changed does not agree with the sum that was sent with it. -/
theorem StartsAltered.mismatched {length : UInt16} {s s' : Incoming} (h : StartsAltered length s)
    {payload : List UInt8} (htakes : Takes length s payload s') (data : Region) :
    chksum (data.store payload) (headerLength (s.unread.take headerSize)) ≠
      headerSum (s.unread.take headerSize) := by
  obtain ⟨pad, source, message, altered, rest, hsource, haltered, -, hunread⟩ := h
  obtain ⟨hheader, rfl⟩ := htakes.payload_eq hunread
  obtain ⟨order, hburst⟩ := haltered.burst
  have hlength : altered.message.length = message.length := congrArg UInt16.ofNat haltered.length
  have hsent : chksum (Region.ofBytes message.payload) message.length =
      chksum source message.length :=
    chksum_store (fun _ => 0) source message hsource
  have hreceived := chksum_store data _ altered.message (Region.load_ofBytes _)
  rw [hlength] at hreceived
  rw [← Message.length_toNat] at hburst
  rw [hheader, headerLength_headerBytes, headerSum_headerBytes, haltered.sum, hlength, hreceived]
  exact fun heq => chksum_ne_of_burst hburst (hsent.trans heq.symm)

/-- Corruption is caught exactly if no message arrives whole that does not agree with its sum. -/
theorem corruptionCaught_iff (data : Region) (length : UInt16) (s : Incoming) :
    CorruptionCaught data length s ↔ ¬ArrivesMismatched data length s := by
  constructor
  · rintro hcaught ⟨payload, s', htakes, hmismatch⟩
    exact hmismatch (hcaught.verified _ _ (htakes.recvdata_eq data) rfl)
  · intro hnone
    refine ⟨fun received s' hcall hrc => ?_, fun haltered received s' hcall hrc => ?_⟩
    · obtain ⟨payload, htakes⟩ := takes_of_recvdata hcall (by omega)
      rw [htakes.recvdata_eq data] at hcall
      cases hcall
      by_contra hmismatch
      exact hnone ⟨payload, s', htakes, hmismatch⟩
    · obtain ⟨payload, htakes⟩ := takes_of_recvdata hcall (by omega)
      exact hnone ⟨payload, s', htakes, haltered.mismatched htakes data⟩

/-- A message of one byte. -/
def singleByte (byte : UInt8) : Message := ⟨[byte], by simp, by simp⟩

/-- The frame of the byte `1`, with its last bit changed on the way. -/
def alteredByte : Frame :=
  { sentFrame (0, 0) (Region.ofBytes [1]) (singleByte 1) with message := singleByte 0 }

/-- A call that succeeds with another sum than that of the header has not caught the corruption. -/
theorem not_corruptionCaught {data : Region} {length : UInt16} {s : Incoming}
    (h : (recvdata data length s).any (fun result => result.1.rc = 0 ∧
      chksum result.1.data result.1.length ≠ headerSum (s.unread.take headerSize)) = true) :
    ¬CorruptionCaught data length s := by
  intro hcaught
  cases hcall : recvdata data length s with
  | none =>
    rw [hcall] at h
    contradiction
  | some result =>
    rw [hcall, Option.any_some, decide_eq_true_eq] at h
    exact h.2 (hcaught.verified _ _ hcall h.1)

/-- A byte that was changed on the way is delivered as a success. -/
theorem recvdata_delivers_altered :
    StartsAltered 1 (Incoming.whole alteredByte.bytes) ∧
      ((recvdata (fun _ => 0) 1 (Incoming.whole alteredByte.bytes)).map fun result =>
        (result.1.rc, result.1.data.load 1)) = some (0, [0]) ∧
      ¬CorruptionCaught (fun _ => 0) 1 (Incoming.whole alteredByte.bytes) := by
  refine ⟨⟨(0, 0), Region.ofBytes [1], singleByte 1, alteredByte, [], by decide,
    ⟨rfl, rfl, rfl, Equiv.refl _, ?_, ?_⟩, by decide, by simp [Incoming.whole]⟩, by decide +kernel,
    not_corruptionCaught (by decide +kernel)⟩
  · exact ⟨0, by decide, by decide⟩
  · exact ⟨0, fun position hposition _ => ⟨Nat.zero_le _, by
      have : position < 8 := hposition
      omega⟩⟩

end VirtualFirmware.Messaging
