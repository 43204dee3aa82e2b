import VirtualFirmware.Driver.Adminq

/-!
# What the driver does to the device

Programming the ring makes the device process one slot, at whatever head it had before. A
command that reaches the ring fills one slot and makes the device process one slot. Nothing
else the driver does reaches the device.
-/

namespace VirtualFirmware.Driver

open Library Adminq Device

/-- The registers that the ring is programmed with. -/
def AdminqInfo.regs (aq : AdminqInfo) : RingRegs :=
  ⟨(aq.dma >>> 32).toUInt32, (aq.dma &&& 0xffffffff).toUInt32,
    aq.numAsqEntries.toUInt32 ||| atqEnableMask⟩

/-- The device finds the ring's memory. -/
@[simp] theorem AdminqInfo.regs_base (aq : AdminqInfo) : aq.regs.base = aq.dma := by
  apply UInt64.toNat_inj.mp
  have hlt := aq.dma.toNat_lt
  have hmask : aq.dma.toNat &&& 4294967295 = aq.dma.toNat % 2 ^ 32 :=
    Nat.and_two_pow_sub_one_eq_mod aq.dma.toNat 32
  simp only [RingRegs.base, AdminqInfo.regs, UInt64.toNat_add, UInt64.toNat_shiftLeft,
    UInt32.toNat_toUInt64, UInt64.toNat_toUInt32, UInt64.toNat_shiftRight, UInt64.toNat_and,
    Nat.shiftLeft_eq, Nat.shiftRight_eq_div_pow, UInt64.reduceToNat, hmask, Nat.reduceMod,
    Nat.reducePow] at *
  omega

/-- The device reads the ring's size off its length register. -/
@[simp] theorem AdminqInfo.regs_ringLen (aq : AdminqInfo) : aq.regs.ringLen = aq.numAsqEntries := by
  apply UInt16.toBitVec_inj.mp
  ext i hi
  have hones : (65535#16)[i] = true := by
    rw [show 65535#16 = BitVec.allOnes 16 from rfl, BitVec.getElem_allOnes]
  simp [RingRegs.ringLen, AdminqInfo.regs, atqEnableMask, hones]

/-- The descriptor that stands in a slot. -/
def descAt (ram : AddressSpace) (slot : UInt64) : AqDesc :=
  AqDesc.ofBytes (ram.read slot AqDesc.size)

/-- A slot that is overwritten with a descriptor holds it. -/
theorem descAt_overwrite (ram : AddressSpace) (slot : UInt64) (desc : AqDesc) :
    descAt (ram.write slot desc.bytes) slot = desc := by
  have hread := AddressSpace.read_write ram slot desc.bytes (by rw [AqDesc.bytes_length]; decide)
  rw [AqDesc.bytes_length] at hread
  rw [descAt, hread, AqDesc.ofBytes_bytes]

/-- Guest RAM once the caller's buffer is attached. -/
def attached (aq : AdminqInfo) (buff : Option Region) (buffSize : UInt16) (ram : AddressSpace) :
    AddressSpace :=
  match buff with
  | none => ram
  | some buff =>
    let dma := aq.asqBi aq.nextToUse.toNat
    ((((ram.write dma (buff.load buffSize.toNat)).write (aq.slot + 4)
      (leBytes 2 buffSize.toNat)).write
      (aq.slot + 24) (leBytes 4 (dma >>> 32).toNat)).write
      (aq.slot + 28) (leBytes 4 (dma &&& 0xffffffff).toNat))

/-- The machine with the command in its slot, before the tail is written. -/
def posted (aq : AdminqInfo) (call : AsqCall) (m : Machine) : Machine :=
  let ram := attached aq call.buff call.buffSize (m.ram.write aq.slot call.marked.bytes)
  { m with ram, trace := m.trace ++ [.posted aq.slot (descAt ram aq.slot)] }

section Commands

variable (startXmit : Machine → Machine) (aq : AdminqInfo) (m : Machine)

/-- Polling changes nothing. -/
theorem pollSlot_eq (slot : UInt64) (attempts : ℕ) :
    pollSlot slot attempts aq m = .pure (((), aq), m) := by
  induction attempts with
  | zero => rfl
  | succ attempts ih =>
    change (if (decide ((descAt m.ram slot).flags &&& flagDD ≠ 0)) = true then pure ()
      else pollSlot slot attempts : DriverM Unit) aq m = _
    split
    · rfl
    · exact ih

/-- What is collected from guest RAM. -/
def collected (call : AsqCall) (desc : AqDesc) (slot bufAddr : UInt64) (ram : AddressSpace) :
    AsqResult :=
  if (descAt ram slot).Done then
    { status := (descAt ram slot).retval
      desc := descAt ram slot
      buff := call.buff.map fun buff => buff.store (ram.read bufAddr call.buffSize.toNat) }
  else { status := errTimeout, desc, buff := call.buff }

/-- Collecting the result changes nothing. -/
theorem collect_eq (call : AsqCall) (desc : AqDesc) (slot bufAddr : UInt64) :
    collect call desc slot bufAddr aq m =
      .pure ((collected call desc slot bufAddr m.ram, aq), m) := by
  change (if decide (descAt m.ram slot).Done = true then _ else _ : DriverM AsqResult) aq m = _
  unfold collected
  by_cases hdone : (descAt m.ram slot).Done
  · rw [if_pos (decide_eq_true hdone), if_pos hdone]
    rfl
  · rw [if_neg (mt of_decide_eq_true hdone), if_neg hdone]
    rfl

/-- A write of the tail is the device's handler. -/
theorem writeTail_eq (val : UInt32) :
    driverPlatform.writeTail startXmit val aq m =
      e1000SetAtqTail pfAtqt val m >>= fun written => .pure (((), aq), written.2) := by
  have hwrite : driverPlatform.writeTail startXmit val aq m =
      (e1000SetAtqTail pfAtqt val m >>= fun written => .pure (((), aq), written.2)) >>=
        fun written => .pure (((), written.1.2), written.2) := rfl
  rw [hwrite, Interaction.bind_assoc]
  rfl

/-- A command that reaches the ring is one tail write after its slot is filled. -/
theorem postCommand_eq (call : AsqCall) :
    postCommand startXmit call aq m =
      e1000SetAtqTail pfAtqt aq.bumped.nextToUse.toUInt32 (posted aq call m) >>= fun written =>
        .pure ((collected call call.marked aq.slot (aq.asqBi aq.nextToUse.toNat) written.2.ram,
          aq.bumped), written.2) := by
  have hposted : postCommand startXmit call aq m =
      driverPlatform.writeTail startXmit aq.bumped.nextToUse.toUInt32 aq.bumped
        (posted aq call m) >>= fun written =>
        pollSlot aq.slot 100 written.1.2 written.2 >>= fun polled =>
          collect call call.marked aq.slot (aq.asqBi aq.nextToUse.toNat) polled.1.2 polled.2 >>=
            fun result => .pure ((result.1.1, result.1.2), result.2) := by
    obtain ⟨desc, buff, buffSize⟩ := call
    cases buff <;> rfl
  rw [hposted, writeTail_eq, Interaction.bind_assoc]
  simp only [Interaction.pure_bind, pollSlot_eq, collect_eq]

/-- A call with too large a buffer is turned away. -/
theorem e1000AsqSendCommand_refused {call : AsqCall} (h : call.buffSize > aq.asqBufSize) :
    ∃ result, e1000AsqSendCommand startXmit call aq m = .pure ((result, aq), m) := by
  change ∃ result, (if call.buffSize > aq.asqBufSize then _ else postCommand startXmit call :
    DriverM AsqResult) aq m = _
  rw [if_pos h]
  exact ⟨_, rfl⟩

/-- Any other call is posted and its result collected. -/
theorem e1000AsqSendCommand_eq {call : AsqCall} (h : ¬ call.buffSize > aq.asqBufSize) :
    e1000AsqSendCommand startXmit call aq m =
      e1000SetAtqTail pfAtqt aq.bumped.nextToUse.toUInt32 (posted aq call m) >>= fun written =>
        .pure ((collected call call.marked aq.slot (aq.asqBi aq.nextToUse.toNat) written.2.ram,
          aq.bumped), written.2) := by
  change (if call.buffSize > aq.asqBufSize then _ else postCommand startXmit call :
    DriverM AsqResult) aq m = _
  rw [if_neg h, postCommand_eq]

/-- A call whose buffer fits fills its slot, writes the tail and moves the index on. -/
theorem e1000AsqSendCommand_posted {call : AsqCall} (h : ¬ call.buffSize > aq.asqBufSize) :
    Interaction.Always (fun result => result.1.2 = aq.bumped ∧
        TailWritten (posted aq call m) aq.bumped.nextToUse.toUInt32 result.2)
      (e1000AsqSendCommand startXmit call aq m) := by
  rw [e1000AsqSendCommand_eq startXmit aq m h, Interaction.always_bind]
  exact (e1000SetAtqTail_written _ _).mono fun written hwritten => ⟨rfl, hwritten⟩

/-- The machine with the ring programmed, before the tail and the head are reset. -/
def programmed : Machine :=
  { m with
    dev := ((m.dev.setMac pfAtqbah aq.regs.bah).setMac pfAtqbal aq.regs.bal).setMac
      pfAtqlen aq.regs.len }

/-- The device is programmed with the driver's ring. -/
@[simp] theorem programmed_ring : (programmed aq m).dev.ring = aq.regs := by
  have hbah : (programmed aq m).dev.macReg pfAtqbah = aq.regs.bah := by
    rw [programmed, E1000State.setMac_of_ne _ _ (by decide),
      E1000State.setMac_of_ne _ _ (by decide), E1000State.setMac_self]
  have hbal : (programmed aq m).dev.macReg pfAtqbal = aq.regs.bal := by
    rw [programmed, E1000State.setMac_of_ne _ _ (by decide), E1000State.setMac_self]
  have hlen : (programmed aq m).dev.macReg pfAtqlen = aq.regs.len := E1000State.setMac_self _ _ _
  rw [E1000State.ring, hbah, hbal, hlen]

/-- Programming the registers of the ring leaves the head. -/
@[simp] theorem programmed_head : (programmed aq m).dev.macReg pfAtqh = m.dev.macReg pfAtqh := by
  rw [programmed, E1000State.setMac_of_ne _ _ (by decide), E1000State.setMac_of_ne _ _ (by decide),
    E1000State.setMac_of_ne _ _ (by decide)]

/-- Programming the ring writes the tail before it resets the head. -/
theorem e1000ConfigAdminqRegs_eq :
    e1000ConfigAdminqRegs startXmit aq m =
      e1000SetAtqTail pfAtqt 0 (programmed aq m) >>= fun written =>
        .pure (((), aq), { written.2 with dev := written.2.dev.setMac pfAtqh 0 }) := by
  have hconfig : e1000ConfigAdminqRegs startXmit aq m =
      driverPlatform.writeTail startXmit 0 aq (programmed aq m) >>= fun written =>
        .pure (((), written.1.2), { written.2 with dev := written.2.dev.setMac pfAtqh 0 }) := rfl
  rw [hconfig, writeTail_eq, Interaction.bind_assoc]
  rfl

end Commands

end VirtualFirmware.Driver
