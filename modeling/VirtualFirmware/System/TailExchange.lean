import VirtualFirmware.Device.TailWrite
import VirtualFirmware.System.Exchange

/-!
# A tail write over a connection to the firmware

A tail write fetches a descriptor, exchanges it with the firmware and writes the answer
back. Whatever the order of steps, a tail write that returns has written the firmware's
answer to the slot it fetched from and changed nothing else in guest RAM; one that is not
answered never returns.
-/

namespace VirtualFirmware.System

open Library Messaging Adminq Device Firmware

/-- The machine after a tail write that the firmware answered. -/
def machineAnswered (m : Machine) (val : UInt32) : Machine :=
  let after := machineAfter m.headDesc (m.fetched val)
  Machine.finished { after with trace := after.trace ++ [.answered (respond m.headDesc)] }
    m.headSlot (respond m.headDesc)

section TailWrite

variable {m : Machine} {link : Link} {history payloads : List (List UInt8)}

/-- A tail write follows the device's script and then the rest of the handler. -/
theorem tailWrite_follows {fs : Int} {script : List (Act (List UInt8))} {val : UInt32}
    {final : Interaction DeviceOp DeviceReply ((Int × AqDesc) × Machine)}
    (h : Follows (devicePort fs) (e1000SendAqCmd m.headDesc (m.fetched val)) script final) :
    Follows (devicePort fs) (e1000SetAtqTail pfAtqt val m) script
      ((final >>= fun result => settleAqCmd result.1.1 result.1.2 result.2) >>= fun result =>
        .pure ((), result.2.finished m.headSlot result.1)) := by
  rw [e1000SetAtqTail_eq, executeAqCmd_eq]
  exact (h.bind _).bind _

/-- A tail write whose command is answered is inside a session that ends with the answer. -/
theorem tailWrite_session {fs : Int} (hfs : m.dev.fs = fs) (hconnected : fs ≠ invalidSocket)
    (hcarries : link.Carries ⟨history, []⟩ ⟨payloads, []⟩) (val : UInt32) (locals : Locals)
    (hanswered : Answered locals.echobuf m.headDesc) :
    ∃ history' payloads', InSession (devicePort fs) firmwarePort t0EntryRound
      (.pure ((), machineAnswered m val))
      (.pure (some (localsAfter locals m.headDesc (commandData m.headDesc (m.fetched val)))))
      history' payloads' ⟨e1000SetAtqTail pfAtqt val m, t0EntryRound locals, link⟩ := by
  have hdevice := tailWrite_follows (device_follows (m := m.fetched val) hfs hconnected m.headDesc)
  rw [Interaction.pure_bind, settleAqCmd_answered (by simp), Interaction.pure_bind] at hdevice
  exact ⟨_, _, ⟨history, []⟩, ⟨payloads, []⟩, _, _, _, hcarries,
    answered_completes hanswered _, firmwareScript_endsInSend _ _ _, hdevice,
    firmware_follows locals m.headDesc (commandData_length _ _), rfl, rfl, rfl⟩

/-- A tail write whose command is not answered is inside a session that ends with the device
waiting for data. -/
theorem tailWrite_session_unanswered {fs : Int} (hfs : m.dev.fs = fs)
    (hconnected : fs ≠ invalidSocket) (hcarries : link.Carries ⟨history, []⟩ ⟨payloads, []⟩)
    (val : UInt32) (locals : Locals) (hnot : ¬ Answered locals.echobuf m.headDesc) :
    ∃ op next history' payloads', (devicePort fs).waits op ∧
      InSession (devicePort fs) firmwarePort t0EntryRound (.perform op next)
        (.pure (some (localsAfter locals m.headDesc (commandData m.headDesc (m.fetched val)))))
        history' payloads' ⟨e1000SetAtqTail pfAtqt val m, t0EntryRound locals, link⟩ := by
  have hne := (not_or.mp hnot).1
  have hdevice := tailWrite_follows
    (device_follows_unanswered (m := m.fetched val) hfs hconnected hne)
  have hpos : 0 < (respond m.headDesc).datalen := by
    rw [respond_datalen]
    exact UInt16.pos_iff_ne_zero.mpr hne
  obtain ⟨data, length, next, hwaits⟩ :=
    recvAqBuffer_waits m.headDesc hpos (m.fetched val).allocated
  rw [hwaits] at hdevice
  exact ⟨.message _ (.recvdata data length), _, _, _, trivial, ⟨history, []⟩, ⟨payloads, []⟩, _, _,
    _, hcarries, unanswered_completes hnot _, firmwareScript_endsInSend _ _ _, hdevice,
    firmware_follows locals m.headDesc (commandData_length _ _), rfl, rfl, rfl⟩

end TailWrite

/-- An answered tail write puts the firmware's answer into the slot and changes no other byte. -/
@[simp] theorem machineAnswered_ram (m : Machine) (val : UInt32) :
    (machineAnswered m val).ram = m.ram.write m.headSlot (respond m.headDesc).bytes := by
  unfold machineAnswered machineAfter
  split <;> rfl

/-- An answered tail write keeps the socket. -/
@[simp] theorem machineAnswered_fs (m : Machine) (val : UInt32) :
    (machineAnswered m val).dev.fs = m.dev.fs := by
  unfold machineAnswered machineAfter
  split <;> rfl

/-- What an answered tail write adds to the trace. -/
theorem machineAnswered_trace (m : Machine) (val : UInt32) :
    (machineAnswered m val).trace = m.trace ++
      [.fetched m.dev.ring m.headSlot m.headDesc, .answered (respond m.headDesc),
        .writtenBack m.dev.ring m.headSlot (respond m.headDesc)] := by
  have hring : (m.dev.setMac pfAtqt val).ring = m.dev.ring :=
    ring_setMac _ _ (by decide) (by decide) (by decide)
  unfold machineAnswered machineAfter
  split <;> simp [Machine.finished, Machine.fetched, Machine.allocated, hring]

/-- The machine with a given socket in the device. -/
def withSocket (m : Machine) (fs : Int) : Machine := { m with dev := m.dev.withFs fs }

/-- A machine with one descriptor at the start of guest RAM and an empty ring there. -/
def machineWithDesc (desc : AqDesc) : Machine :=
  { (default : Machine) with ram := AddressSpace.write (fun _ => 0) 0 desc.bytes }

/-- The descriptor is the one a tail write fetches. -/
theorem machineWithDesc_headDesc (desc : AqDesc) : (machineWithDesc desc).headDesc = desc := by
  have hslot : (machineWithDesc desc).headSlot = 0 := by
    simp only [Machine.headSlot, machineWithDesc]
    decide
  have hread :=
    AddressSpace.read_write (fun _ => 0) 0 desc.bytes (by rw [AqDesc.bytes_length]; decide)
  rw [AqDesc.bytes_length] at hread
  rw [Machine.headDesc, hslot, machineWithDesc, hread, AqDesc.ofBytes_bytes]

/-- A descriptor with the given opcode and nothing else. -/
def bareDesc (opcode : UInt16) : AqDesc :=
  { flags := 0, opcode, datalen := 0, retval := 0, cookieHigh := 0, cookieLow := 0,
    param0 := 0, param1 := 0, addrHigh := 0, addrLow := 0 }

end VirtualFirmware.System
