import VirtualFirmware.Device.TailWrite

/-!
# What a tail write leaves in its slot

The slot at the head holds afterwards what the firmware answered, or the command as the device
itself completes it.
-/

namespace VirtualFirmware.Device

open Library Messaging Adminq

/-- A command ends as the device's own completion or as an answer of the firmware. -/
theorem executeAqCmd_result (desc : AqDesc) (m : Machine) :
    Interaction.Always (fun result => result.1 = completed desc ∨
        result.2.trace = m.trace ++ [.answered result.1])
      (executeAqCmd desc m) := by
  rw [executeAqCmd_eq, Interaction.always_bind]
  refine (e1000SendAqCmd_exchanged desc m).mono fun result h => ?_
  by_cases hrc : result.1.1 < 0
  · obtain ⟨hfailed, -, -⟩ := h.outcome.resolve_right (by omega)
    rw [settleAqCmd_failed hrc, hfailed]
    exact .inl rfl
  · rw [settleAqCmd_answered hrc]
    exact .inr (by rw [← h.trace])

/-- The slot that was processed holds the result. -/
theorem Machine.finished_slot (m : Machine) (base : UInt64) (desc : AqDesc) :
    (m.finished base desc).ram.read base AqDesc.size = desc.bytes := by
  have hread := AddressSpace.read_write m.ram base desc.bytes (by rw [AqDesc.bytes_length]; decide)
  rwa [AqDesc.bytes_length] at hread

/-- Whatever the exchange does, the slot at the head holds one of the two results afterwards. -/
theorem e1000SetAtqTail_slot (val : UInt32) (m : Machine) :
    Interaction.Always (fun result =>
        ∃ desc, result.2.ram.read m.headSlot AqDesc.size = desc.bytes ∧
          (desc = completed m.headDesc ∨ .answered desc ∈ result.2.trace.drop m.trace.length))
      (e1000SetAtqTail pfAtqt val m) := by
  rw [e1000SetAtqTail_eq, Interaction.always_bind]
  refine (executeAqCmd_result m.headDesc (m.fetched val)).mono fun result h => ?_
  refine ⟨result.1, Machine.finished_slot _ _ _, h.imp_right fun htrace => ?_⟩
  simp [Machine.finished, htrace, Machine.fetched]

section Answered

variable (reply : ∀ op, DeviceReply op) (desc : AqDesc) (m : Machine)

/-- On fixed replies, the response decides how the exchange goes on. -/
theorem recvAqResponse_resolve :
    (recvAqResponse desc m).resolve reply =
      let received := reply (.message m.dev.fs (.recvdata (fun _ => 0) (UInt16.ofNat AqDesc.size)))
      ((if received.rc < 0 then sendAqErr desc
        else recvAqBuffer desc (AqDesc.ofRegion received.data)) m).resolve reply := rfl

/-- On fixed replies, sending the descriptor decides how the exchange goes on. -/
theorem sendAqDesc_resolve :
    (sendAqDesc desc m).resolve reply =
      ((if (reply (.message m.dev.fs
            (.senddata desc.toRegion (UInt16.ofNat AqDesc.size)))).rc < 0 then sendAqErr desc
        else sendAqBuffer desc) m).resolve reply := rfl

/-- On fixed replies, a command over a connection starts with its descriptor. -/
theorem e1000SendAqCmd_resolve :
    (e1000SendAqCmd desc m).resolve reply =
      if m.dev.fs = invalidSocket then
        if reply .locate = invalidSocket then
          (sendAqErr desc { m with dev := m.dev.withFs (reply .locate) }).resolve reply
        else (sendAqDesc desc { m with dev := m.dev.withFs (reply .locate) }).resolve reply
      else (sendAqDesc desc m).resolve reply := by
  have hstart : e1000SendAqCmd desc m = (if m.dev.fs = invalidSocket then
      (do setFs (← call .locate)
          if (← get).dev.fs = invalidSocket then sendAqErr desc else sendAqDesc desc)
      else sendAqDesc desc : DeviceM (Int × AqDesc)) m := rfl
  rw [hstart]
  split
  · have hlocated : ((do
        setFs (← call .locate)
        if (← get).dev.fs = invalidSocket then sendAqErr desc else sendAqDesc desc :
          DeviceM (Int × AqDesc)) m).resolve reply =
        ((if reply .locate = invalidSocket then sendAqErr desc else sendAqDesc desc)
          { m with dev := m.dev.withFs (reply .locate) }).resolve reply := rfl
    rw [hlocated]
    split <;> rfl
  · rfl

/-- Replies with which the firmware takes every message and answers with this descriptor. -/
def answering (answer : AqDesc) : (op : DeviceOp) → DeviceReply op
  | .locate => 3
  | .close _ => ()
  | .message _ (.senddata _ _) => { rc := 1 }
  | .message _ (.recvdata _ length) => { rc := 0, data := answer.toRegion, length }

/-- Every message is taken. -/
theorem answering_senddata (answer : AqDesc) (fs : Int) (data : Region) (length : UInt16) :
    ¬ (answering answer (.message fs (.senddata data length))).rc < 0 :=
  Int.not_lt.mpr (Int.zero_le_ofNat 1)

/-- Every response is the answer. -/
theorem answering_recvdata (answer : AqDesc) (fs : Int) (data : Region) (length : UInt16) :
    answering answer (.message fs (.recvdata data length)) =
      { rc := 0, data := answer.toRegion, length } := rfl

variable {desc}

/-- A command without data gets this answer. -/
theorem e1000SendAqCmd_answering {answer : AqDesc} (hdesc : desc.datalen = 0)
    (hanswer : answer.datalen = 0) :
    ((e1000SendAqCmd desc m).resolve (answering answer)).1 = (0, answer) := by
  have hreceived : AqDesc.ofRegion answer.toRegion = answer := by
    have hload := Region.load_ofBytes answer.bytes
    rw [AqDesc.bytes_length] at hload
    rw [AqDesc.ofRegion, AqDesc.toRegion, hload, AqDesc.ofBytes_bytes]
  have hbuffer (m : Machine) : recvAqBuffer desc answer m = .pure ((0, answer), m) :=
    recvAqBuffer_of_not_pos m (by simp [hanswer])
  have hsent (m : Machine) : ((sendAqDesc desc m).resolve (answering answer)).1 = (0, answer) := by
    rw [sendAqDesc_resolve, if_neg (answering_senddata _ _ _ _),
      sendAqBuffer_of_not_pos _ (by simp [hdesc]),
      recvAqResponse_resolve, answering_recvdata]
    dsimp only
    rw [if_neg (by decide), hreceived, hbuffer]
    rfl
  rw [e1000SendAqCmd_resolve]
  split
  · have hlocated : answering answer .locate ≠ invalidSocket :=
      show (3 : Int) ≠ invalidSocket by decide
    rw [if_neg hlocated, hsent]
  · exact hsent m

/-- After such an exchange the slot at the head holds the answer. -/
theorem e1000SetAtqTail_answering {answer : AqDesc} (hdesc : m.headDesc.datalen = 0)
    (hanswer : answer.datalen = 0) (val : UInt32) :
    ((e1000SetAtqTail pfAtqt val m).resolve (answering answer)).2.ram.read m.headSlot AqDesc.size =
      answer.bytes := by
  have hexchange := e1000SendAqCmd_answering (m.fetched val) hdesc hanswer
  rw [e1000SetAtqTail_eq, Interaction.resolve_bind, executeAqCmd_eq, Interaction.resolve_bind,
    settleAqCmd_answered (by rw [hexchange]; exact Int.lt_irrefl 0)]
  simp only [Interaction.resolve, hexchange]
  exact Machine.finished_slot _ _ _

end Answered

end VirtualFirmware.Device
