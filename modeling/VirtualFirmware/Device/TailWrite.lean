import VirtualFirmware.Device.AtqTail
import VirtualFirmware.Library.Keeps

/-!
# What one tail write does

A tail write takes the descriptor at the head, whatever the tail and the enable bit are,
writes one descriptor back to the same slot and moves the head by one slot. This holds for
every outcome of the socket calls; the exchange itself leaves the registers and the trace
alone.
-/

namespace VirtualFirmware.Device

open Library Messaging Adminq

/-- During an exchange only the heap and the socket change before the result is known. -/
structure Pending (m m' : Machine) : Prop where
  dev : m'.dev = m.dev.withFs m'.dev.fs
  ram : m'.ram = m.ram
  trace : m'.trace = m.trace

/-- What an exchange can do: it leaves the registers and the trace alone, and either fails
without any effect but the closed socket, or succeeds. -/
structure Exchanged (m : Machine) (desc : AqDesc) (result : (Int × AqDesc) × Machine) : Prop where
  dev : result.2.dev = m.dev.withFs result.2.dev.fs
  trace : result.2.trace = m.trace
  outcome : (result.1 = (-1, desc) ∧ result.2.ram = m.ram ∧ result.2.dev.fs = invalidSocket) ∨
    result.1.1 = 0

section Exchange

variable {m m' : Machine} (desc : AqDesc)

/-- Dropping the connection is a failure without effect. -/
theorem sendAqErr_exchanged (h : Pending m m') :
    Interaction.Always (Exchanged m desc) (sendAqErr desc m') := by
  intro _
  have hdev : m'.dev.withFs invalidSocket = m.dev.withFs invalidSocket := by
    rw [h.dev]
    rfl
  exact ⟨hdev, h.trace, .inl ⟨rfl, h.ram, rfl⟩⟩

/-- Receiving the return buffer ends the exchange. -/
theorem recvAqBuffer_exchanged (h : Pending m m') (recvDesc : AqDesc) :
    Interaction.Always (Exchanged m desc) (recvAqBuffer desc recvDesc m') := by
  refine always_ite (fun _ received => ?_) fun _ => ⟨h.dev, h.trace, .inr rfl⟩
  exact always_ite (fun _ => sendAqErr_exchanged desc ⟨h.dev, h.ram, h.trace⟩)
    fun _ => ⟨h.dev, h.trace, .inr rfl⟩

/-- Waiting for the response leaves the outcome open until it is there. -/
theorem recvAqResponse_exchanged (h : Pending m m') :
    Interaction.Always (Exchanged m desc) (recvAqResponse desc m') := fun _ =>
  always_ite (fun _ => sendAqErr_exchanged desc h) fun _ => recvAqBuffer_exchanged desc h _

/-- Sending the command's buffer goes on to the response. -/
theorem sendAqBuffer_exchanged (h : Pending m m') :
    Interaction.Always (Exchanged m desc) (sendAqBuffer desc m') := by
  have hallocated : Pending m m'.allocated := ⟨h.dev, h.ram, h.trace⟩
  refine always_ite (fun _ sent => ?_) fun _ => recvAqResponse_exchanged desc h
  exact always_ite (fun _ => sendAqErr_exchanged desc hallocated)
    fun _ => recvAqResponse_exchanged desc hallocated

/-- Sending the command goes on to its buffer. -/
theorem sendAqDesc_exchanged (h : Pending m m') :
    Interaction.Always (Exchanged m desc) (sendAqDesc desc m') := fun _ =>
  always_ite (fun _ => sendAqErr_exchanged desc h) fun _ => sendAqBuffer_exchanged desc h

/-- Whatever the socket calls return, an exchange does no more than it is said to do. -/
theorem e1000SendAqCmd_exchanged (m : Machine) :
    Interaction.Always (Exchanged m desc) (e1000SendAqCmd desc m) := by
  have hstart : Pending m m := ⟨rfl, rfl, rfl⟩
  refine always_ite (fun _ fs => ?_) fun _ => sendAqDesc_exchanged desc hstart
  have hlocated : Pending m { m with dev := m.dev.withFs fs } := ⟨rfl, rfl, rfl⟩
  exact always_ite (fun _ => sendAqErr_exchanged desc hlocated)
    fun _ => sendAqDesc_exchanged desc hlocated

end Exchange

/-- The slot that a tail write will process. -/
def Machine.headSlot (m : Machine) : UInt64 := m.dev.ring.slot (m.dev.macReg pfAtqh)

/-- The descriptor that stands in that slot. -/
def Machine.headDesc (m : Machine) : AqDesc := AqDesc.ofBytes (m.ram.read m.headSlot AqDesc.size)

/-- The machine once the descriptor is fetched. -/
def Machine.fetched (m : Machine) (val : UInt32) : Machine :=
  { m with
    dev := m.dev.setMac pfAtqt val
    trace := m.trace ++ [.fetched m.dev.ring m.headSlot m.headDesc] }

/-- The head after a slot was processed. -/
def nextHead (head : UInt32) (ringLen : UInt16) : UInt32 :=
  if head + 1 ≥ ringLen.toUInt32 then 0 else head + 1

/-- The machine once the descriptor is written back. -/
def Machine.finished (m : Machine) (base : UInt64) (desc : AqDesc) : Machine :=
  { m with
    dev := m.dev.setMac pfAtqh (nextHead (m.dev.macReg pfAtqh) m.dev.ring.ringLen)
    ram := m.ram.write base desc.bytes
    trace := m.trace ++ [.writtenBack m.dev.ring base desc] }

/-- Registers other than these three do not place the ring. -/
theorem ring_setMac (dev : E1000State) {index : ℕ} (value : UInt32) (hbah : pfAtqbah ≠ index)
    (hbal : pfAtqbal ≠ index) (hlen : pfAtqlen ≠ index) :
    (dev.setMac index value).ring = dev.ring := by
  simp only [E1000State.ring, dev.setMac_of_ne value hbah, dev.setMac_of_ne value hbal,
    dev.setMac_of_ne value hlen]

/-- Moving the head changes one register. -/
theorem advanceHead_eq (m : Machine) :
    advanceHead m = .pure ((), { m with
      dev := m.dev.setMac pfAtqh (nextHead (m.dev.macReg pfAtqh) m.dev.ring.ringLen) }) := by
  change (if (m.dev.setMac pfAtqh (m.dev.macReg pfAtqh + 1)).macReg pfAtqh ≥
    m.dev.ring.ringLen.toUInt32 then setMacReg pfAtqh 0 else pure () : DeviceM Unit)
      { m with dev := m.dev.setMac pfAtqh (m.dev.macReg pfAtqh + 1) } = _
  rw [E1000State.setMac_self, nextHead]
  split
  · rw [← E1000State.setMac_setMac m.dev pfAtqh (m.dev.macReg pfAtqh + 1) 0]
    rfl
  · rfl

/-- Writing back and moving on involves no socket call. -/
theorem finishAqCmd_eq (base : UInt64) (desc : AqDesc) (m : Machine) :
    finishAqCmd base desc m = .pure ((), m.finished base desc) :=
  advanceHead_eq { m with
    ram := m.ram.write base desc.bytes
    trace := m.trace ++ [.writtenBack m.dev.ring base desc] }

/-- A tail write fetches the head's descriptor, carries it out and finishes. -/
theorem e1000SetAtqTail_eq (val : UInt32) (m : Machine) :
    e1000SetAtqTail pfAtqt val m =
      executeAqCmd m.headDesc (m.fetched val) >>= fun result =>
        .pure ((), result.2.finished m.headSlot result.1) := by
  have hring : (m.dev.setMac pfAtqt val).ring = m.dev.ring :=
    ring_setMac m.dev val (by decide) (by decide) (by decide)
  have hhead : (m.dev.setMac pfAtqt val).macReg pfAtqh = m.dev.macReg pfAtqh :=
    m.dev.setMac_of_ne val (by decide)
  have hfinish (base : UInt64) :
      (fun result : AqDesc × Machine => finishAqCmd base result.1 result.2) =
      fun result => .pure ((), result.2.finished base result.1) := by
    funext result
    exact finishAqCmd_eq base result.1 result.2
  rw [← hfinish, Machine.fetched, Machine.headDesc, Machine.headSlot, ← hring, ← hhead]
  rfl

/-- The descriptor as the device itself carries it out, before the done flag. -/
def processed (desc : AqDesc) : AqDesc :=
  match AqOpcode.ofCode desc.opcode with
  | some .getVersion => e1000AqGetVersion desc
  | some .echo => desc
  | _ => { desc with retval := rcENOSYS }

/-- An echo of data takes two heap blocks; nothing else changes the machine. -/
def machineProcessed (desc : AqDesc) (m : Machine) : Machine :=
  if AqOpcode.ofCode desc.opcode = some .echo ∧ desc.datalen ≠ 0 then m.allocated.allocated else m

/-- An echo reads the command's buffer and writes it back unchanged. -/
theorem e1000AqEcho_eq (desc : AqDesc) (m : Machine) :
    e1000AqEcho desc m = .pure (desc, if desc.datalen ≠ 0 then m.allocated.allocated else m) := by
  change (if desc.datalen ≠ 0 then _ else _ : DeviceM AqDesc) m = _
  split
  · have hload (region : Region) (bytes : List UInt8) (hbytes : bytes.length = desc.datalen.toNat) :
        (region.store bytes).load desc.datalen.toNat = bytes := by
      rw [← hbytes, Region.load_store]
    change Interaction.pure (desc, { m.allocated.allocated with
      ram := m.ram.write desc.bufferAddr (((m.heap 1).store
        (m.ram.read desc.bufferAddr desc.datalen.toNat)).load desc.datalen.toNat) }) = _
    rw [hload _ _ (AddressSpace.read_length _ _ _), AddressSpace.write_read]
    rfl
  · rfl

/-- The device carries out a command without a socket call and without changing guest RAM. -/
theorem processAqCmd_eq (desc : AqDesc) (m : Machine) :
    processAqCmd desc m = .pure (processed desc, machineProcessed desc m) := by
  unfold processAqCmd AqPlatform.processAqCmd processed machineProcessed
  cases AqOpcode.ofCode desc.opcode with
  | none => rfl
  | some opcode =>
    cases opcode with
    | getVersion => rfl
    | driverHeartbeat => rfl
    | echo =>
      change e1000AqEcho desc m = _
      simpa using e1000AqEcho_eq desc m

/-- Carrying out a command leaves the device alone. -/
@[simp] theorem machineProcessed_dev (desc : AqDesc) (m : Machine) :
    (machineProcessed desc m).dev = m.dev := by
  unfold machineProcessed
  split <;> rfl

/-- Carrying out a command leaves guest RAM alone. -/
@[simp] theorem machineProcessed_ram (desc : AqDesc) (m : Machine) :
    (machineProcessed desc m).ram = m.ram := by
  unfold machineProcessed
  split <;> rfl

/-- Carrying out a command is not an access to the ring. -/
@[simp] theorem machineProcessed_trace (desc : AqDesc) (m : Machine) :
    (machineProcessed desc m).trace = m.trace := by
  unfold machineProcessed
  split <;> rfl

/-- The descriptor as the device itself completes it. -/
def completed (desc : AqDesc) : AqDesc :=
  { processed desc with flags := (processed desc).flags ||| flagDD }

/-- After a failed exchange the device completes the command itself. -/
theorem settleAqCmd_failed {rc : Int} (h : rc < 0) (desc : AqDesc) (m : Machine) :
    settleAqCmd rc desc m = .pure (completed desc, machineProcessed desc m) := by
  rw [settleAqCmd, AqPlatform.settleAqCmd, if_pos h]
  change processAqCmd desc m >>= (fun result => .pure
    ({ result.1 with flags := result.1.flags ||| flagDD }, result.2)) = _
  rw [processAqCmd_eq]
  rfl

/-- After a successful exchange the firmware's descriptor stands. -/
theorem settleAqCmd_answered {rc : Int} (h : ¬ rc < 0) (desc : AqDesc) (m : Machine) :
    settleAqCmd rc desc m = .pure (desc, { m with trace := m.trace ++ [.answered desc] }) := by
  rw [settleAqCmd, AqPlatform.settleAqCmd, if_neg h]
  rfl

/-- A command is exchanged with the firmware and then settled. -/
theorem executeAqCmd_eq (desc : AqDesc) (m : Machine) :
    executeAqCmd desc m =
      e1000SendAqCmd desc m >>= fun result => settleAqCmd result.1.1 result.1.2 result.2 := rfl

/-- What carrying out a command can do: either the device did it and set the done flag, or
the firmware answered. -/
structure Executed (m : Machine) (result : AqDesc × Machine) : Prop where
  dev : result.2.dev = m.dev.withFs result.2.dev.fs
  outcome : (result.2.trace = m.trace ∧ result.1.Done) ∨
    result.2.trace = m.trace ++ [.answered result.1]

/-- Whatever the socket calls return, the command is carried out by one of the two. -/
theorem executeAqCmd_executed (desc : AqDesc) (m : Machine) :
    Interaction.Always (Executed m) (executeAqCmd desc m) := by
  rw [executeAqCmd_eq, Interaction.always_bind]
  refine (e1000SendAqCmd_exchanged desc m).mono fun result h => ?_
  by_cases hrc : result.1.1 < 0
  · rw [settleAqCmd_failed hrc]
    refine ⟨?_, .inl ⟨(machineProcessed_trace _ _).trans h.trace, AqDesc.done_setDone _⟩⟩
    simpa using h.dev
  · rw [settleAqCmd_answered hrc]
    exact ⟨h.dev, .inr (by rw [← h.trace])⟩

/-- What a tail write can do. The slot it processes and the next head do not depend on the
tail, the enable bit or the outcome of the exchange. -/
structure TailWritten (m : Machine) (val : UInt32) (m' : Machine) : Prop where
  dev : m'.dev = ((m.dev.setMac pfAtqt val).setMac pfAtqh
    (nextHead (m.dev.macReg pfAtqh) m.dev.ring.ringLen)).withFs m'.dev.fs
  trace : ∃ desc answers, m'.trace = m.trace ++
      (.fetched m.dev.ring m.headSlot m.headDesc ::
        (answers ++ [.writtenBack m.dev.ring m.headSlot desc])) ∧
    (answers = [] ∧ desc.Done ∨ answers = [.answered desc])

/-- Every outcome of a tail write processes the slot at the head and moves the head on. -/
theorem e1000SetAtqTail_written (val : UInt32) (m : Machine) :
    Interaction.Always (fun result => TailWritten m val result.2)
      (e1000SetAtqTail pfAtqt val m) := by
  rw [e1000SetAtqTail_eq, Interaction.always_bind]
  refine (executeAqCmd_executed m.headDesc (m.fetched val)).mono fun result h => ?_
  have hring : result.2.dev.ring = m.dev.ring := by
    rw [h.dev]
    change (m.dev.setMac pfAtqt val).ring = _
    exact ring_setMac m.dev val (by decide) (by decide) (by decide)
  have hhead : result.2.dev.macReg pfAtqh = m.dev.macReg pfAtqh := by
    rw [h.dev]
    change (m.dev.setMac pfAtqt val).macReg pfAtqh = _
    exact m.dev.setMac_of_ne val (by decide)
  refine ⟨?_, result.1, ?_⟩
  · change result.2.dev.setMac pfAtqh (nextHead _ _) = _
    rw [hring, hhead]
    conv_lhs => rw [h.dev]
    rfl
  · simp only [Machine.finished, hring]
    rcases h.outcome with ⟨htrace, hdone⟩ | htrace
    · exact ⟨[], by simp [htrace, Machine.fetched], .inl ⟨rfl, hdone⟩⟩
    · exact ⟨[.answered result.1], by simp [htrace, Machine.fetched], .inr rfl⟩

end VirtualFirmware.Device
