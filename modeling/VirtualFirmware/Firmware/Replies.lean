import VirtualFirmware.Adminq.Overlay
import VirtualFirmware.Firmware.Loop

/-!
# What one round sends

The front of the answer's descriptor depends only on the front of the command's, so the
thread, which sends back as many bytes as it received, sends none of an earlier descriptor.
The buffer follows if an echo asked for it and data was received.
-/

namespace VirtualFirmware.Firmware

open Library Messaging Adminq

/-- The command with its done flag set. -/
def doneDesc (desc : AqDesc) : AqDesc := { desc with flags := desc.flags ||| flagDD }

/-- The bytes of the answer: an unknown command gets a return value, a request for the version
gets its parameters. -/
theorem respond_bytes (desc : AqDesc) : (respond desc).bytes =
    match AqOpcode.ofCode desc.opcode with
    | none => splice (doneDesc desc).bytes 6 (leBytes 2 rcENOSYS.toNat)
    | some .getVersion => splice (doneDesc desc).bytes 16
        (leBytes 4 (e1000AqGetVersion desc).param0.toNat ++
          leBytes 4 (e1000AqGetVersion desc).param1.toNat)
    | some _ => (doneDesc desc).bytes := by
  unfold respond
  cases AqOpcode.ofCode desc.opcode with
  | none => exact AqDesc.bytes_retval (doneDesc desc) rcENOSYS
  | some opcode =>
    cases opcode with
    | getVersion => exact AqDesc.bytes_params (doneDesc desc) _ _
    | driverHeartbeat => rfl
    | echo => rfl

/-- The answer's front depends on the front of the command alone. -/
theorem respond_front {left right : AqDesc} {count : ℕ}
    (h : left.bytes.take count = right.bytes.take count) :
    (respond left).bytes.take count = (respond right).bytes.take count := by
  have hdone : (doneDesc left).bytes.take count = (doneDesc right).bytes.take count :=
    AqDesc.take_bytes_done h
  by_cases hcount : count ≤ 6
  · -- the fields that depend on the opcode are behind the sixth byte
    have hfront (desc : AqDesc) : (respond desc).bytes.take count =
        (doneDesc desc).bytes.take count := by
      rw [respond_bytes]
      cases AqOpcode.ofCode desc.opcode with
      | none => exact take_splice_of_le hcount (by rw [AqDesc.bytes_length]; decide) _
      | some opcode =>
        cases opcode with
        | getVersion => exact take_splice_of_le (by omega) (by rw [AqDesc.bytes_length]; decide) _
        | driverHeartbeat => rfl
        | echo => rfl
    rw [hfront, hdone, hfront]
  · have hlength : (doneDesc left).bytes.length = (doneDesc right).bytes.length := by
      rw [AqDesc.bytes_length, AqDesc.bytes_length]
    rw [respond_bytes, respond_bytes, AqDesc.opcode_congr h (by omega)]
    cases AqOpcode.ofCode right.opcode with
    | none => exact take_splice hlength hdone 6 _
    | some opcode =>
      cases opcode with
      | getVersion => exact take_splice hlength hdone 16 _
      | driverHeartbeat => exact hdone
      | echo => exact hdone

section Round

variable {s : Socket} {locals : Locals}

/-- The buffer is sent back if an echo asked for it and there is data. -/
theorem sendBuffer_sent (hprompt : s.outgoing.Prompt) (locals : Locals) (datLength : UInt16) :
    ((sendBuffer locals datLength).reached Socket.call s).sent =
      s.sent ++ if locals.echobuf && datLength != 0 then [locals.buffer.load datLength.toNat]
        else [] := by
  rw [sendBuffer_eq]
  by_cases hsends : (locals.echobuf && datLength != 0) = true
  · rw [if_pos hsends, if_pos hsends]
    have hpos : 0 < datLength := by
      rw [Bool.and_eq_true, bne_iff_ne] at hsends
      exact UInt16.pos_iff_ne_zero.mpr hsends.2
    obtain ⟨s', hreached, -, -, hsent⟩ := senddata_reached hprompt locals.buffer hpos _
    rw [hreached, ← hsent]
    split <;> rfl
  · rw [if_neg hsends, if_neg hsends, List.append_nil]
    rfl

/-- The answer's descriptor is sent, then the buffer. -/
theorem answer_sent (hprompt : s.outgoing.Prompt) (locals : Locals) {msgLength : UInt16}
    (hpos : 0 < msgLength) (datLength : UInt16) :
    ((answer locals msgLength datLength).reached Socket.call s).sent =
      s.sent ++ (respond locals.desc).toRegion.load msgLength.toNat ::
        if echoes locals.echobuf locals.desc && datLength != 0 then
          [locals.buffer.load datLength.toNat] else [] := by
  rw [answer_eq, setDone_dispatch]
  obtain ⟨s', hreached, hprompt', -, hsent⟩ :=
    senddata_reached hprompt (respond locals.desc).toRegion hpos _
  have hrc : ¬ (msgLength.toNat : Int) = -1 := by omega
  rw [hreached, if_neg hrc, sendBuffer_sent hprompt', hsent, List.append_assoc]
  rfl

/-- A descriptor without data is answered at once. -/
theorem recvBuffer_sent_empty (hprompt : s.outgoing.Prompt) {msgLength : UInt16}
    (hpos : 0 < msgLength) (hzero : locals.desc.datalen = 0) :
    ((recvBuffer locals msgLength).reached Socket.call s).sent =
      s.sent ++ [(respond locals.desc).toRegion.load msgLength.toNat] := by
  rw [recvBuffer_eq, if_neg (not_not.mpr hzero), answer_sent hprompt _ hpos, hzero]
  simp

/-- Nothing is sent while the announced data is missing. -/
theorem recvBuffer_sent_missing (hprompt : s.incoming.Prompt) (hopen : s.incoming.closed = false)
    (hnil : s.incoming.unread = []) (msgLength : UInt16) (hdatalen : locals.desc.datalen ≠ 0) :
    ((recvBuffer locals msgLength).reached Socket.call s).sent = s.sent := by
  rw [recvBuffer_eq, if_pos hdatalen,
    recvdata_reached_of_none (recvdata_waits hprompt hopen hnil _ _)]

/-- Data that fits is received before the answer, which contains it if an echo asked for it. -/
theorem recvBuffer_sent_data (hin : s.incoming.Prompt) (hout : s.outgoing.Prompt) {frame : Frame}
    {rest : List UInt8} (hunread : s.incoming.unread = frame.bytes ++ rest) {msgLength : UInt16}
    (hpos : 0 < msgLength) (hfits : frame.message.length ≤ locals.desc.datalen)
    (hdatalen : locals.desc.datalen ≠ 0) :
    ((recvBuffer locals msgLength).reached Socket.call s).sent =
      s.sent ++ (respond locals.desc).toRegion.load msgLength.toNat ::
        if echoes locals.echobuf locals.desc then [frame.message.payload] else [] := by
  have hne : (frame.message.length != 0) = true := by
    rw [bne_iff_ne, ← UInt16.pos_iff_ne_zero, UInt16.lt_iff_toNat_lt, Message.length_toNat]
    exact frame.message.nonempty
  rw [recvBuffer_eq, if_pos hdatalen, recvdata_reached (recvdata_fits hin hunread _ hfits),
    answer_sent (by exact hout) _ hpos]
  simp only [hne, Bool.and_true, Message.length_toNat, Region.load_store]

end Round

end VirtualFirmware.Firmware
