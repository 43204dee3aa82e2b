import VirtualFirmware.Device.AtqTail

/-!
# The device's register writes

`e1000_mmio_writel` looks the register up in `macreg_writeops` and calls its handler. Most
handlers change the device alone. Two registers of the transmit queue start a transmission,
which is left open here: `startXmit` stands for whatever it does to the machine. The tail
register of the admin queue runs a command.
-/

namespace VirtualFirmware.Device

open Library

/-- The registers the device names, the admin queue's apart. -/
inductive MacReg where
  | ctrl | status | eecd | eerd | mdic | vet | icr | ics | ims | imc | rctl | tctl | ledctl | pba
  | rdbal | rdbah | rdlen | rdh | rdt | tdbal | tdbah | tdlen | tdh | tdt | txdctl | mpc | gprc
  | gptc | torl | torh | totl | toth | tpr | tpt | mta | ra | vfta | wufc | manc | swsm
deriving DecidableEq, Repr

/-- The offset of a register in the device's memory window. -/
def MacReg.offset : MacReg → ℕ
  | .ctrl => 0x0
  | .status => 0x8
  | .eecd => 0x10
  | .eerd => 0x14
  | .mdic => 0x20
  | .vet => 0x38
  | .icr => 0xC0
  | .ics => 0xC8
  | .ims => 0xD0
  | .imc => 0xD8
  | .rctl => 0x100
  | .tctl => 0x400
  | .ledctl => 0xE00
  | .pba => 0x1000
  | .rdbal => 0x2800
  | .rdbah => 0x2804
  | .rdlen => 0x2808
  | .rdh => 0x2810
  | .rdt => 0x2818
  | .tdbal => 0x3800
  | .tdbah => 0x3804
  | .tdlen => 0x3808
  | .tdh => 0x3810
  | .tdt => 0x3818
  | .txdctl => 0x3828
  | .mpc => 0x4010
  | .gprc => 0x4074
  | .gptc => 0x4080
  | .torl => 0x40C0
  | .torh => 0x40C4
  | .totl => 0x40C8
  | .toth => 0x40CC
  | .tpr => 0x40D0
  | .tpt => 0x40D4
  | .mta => 0x5200
  | .ra => 0x5400
  | .vfta => 0x5600
  | .wufc => 0x5808
  | .manc => 0x5820
  | .swsm => 0x5B50

/-- The index of a register in `mac_reg`. -/
def MacReg.index (reg : MacReg) : ℕ := defreg reg.offset

/-- `mac_writereg`. -/
def macWritereg (s : E1000State) (index : ℕ) (val : UInt32) : E1000State := s.setMac index val

/-- `set_rdt`. -/
def setRdt (s : E1000State) (index : ℕ) (val : UInt32) : E1000State :=
  { s with checkRxov := false }.setMac index (val &&& 0xffff)

/-- `set_16bit`. -/
def set16bit (s : E1000State) (index : ℕ) (val : UInt32) : E1000State :=
  s.setMac index (val &&& 0xffff)

/-- `set_dlen`. -/
def setDlen (s : E1000State) (index : ℕ) (val : UInt32) : E1000State :=
  s.setMac index (val &&& 0xfff80)

/-- `set_interrupt_cause`, with `E1000_ICR_INT_ASSERTED` marking that there is a cause. -/
def setInterruptCause (s : E1000State) (_index : ℕ) (val : UInt32) : E1000State :=
  let val := if val ≠ 0 then val ||| 0x80000000 else val
  let s := s.setMac MacReg.icr.index val
  let s := s.setMac MacReg.ics.index val
  { s with irq := s.macReg MacReg.ims.index &&& s.macReg MacReg.icr.index ≠ 0 }

/-- `set_ics`. -/
def setIcs (s : E1000State) (_index : ℕ) (val : UInt32) : E1000State :=
  setInterruptCause s 0 (val ||| s.macReg MacReg.icr.index)

/-- `set_icr`. -/
def setIcr (s : E1000State) (_index : ℕ) (val : UInt32) : E1000State :=
  setInterruptCause s 0 (s.macReg MacReg.icr.index &&& ~~~ val)

/-- `set_imc`. -/
def setImc (s : E1000State) (_index : ℕ) (val : UInt32) : E1000State :=
  setIcs (s.setMac MacReg.ims.index (s.macReg MacReg.ims.index &&& ~~~ val)) 0 0

/-- `set_ims`. -/
def setIms (s : E1000State) (_index : ℕ) (val : UInt32) : E1000State :=
  setIcs (s.setMac MacReg.ims.index (s.macReg MacReg.ims.index ||| val)) 0 0

/-- `rxbufsize`: the size of a receive buffer that `RCTL` selects. -/
def rxbufsize (v : UInt32) : UInt32 :=
  let v := v &&& 0x02030000
  if v = 0x02010000 then 16384
  else if v = 0x02020000 then 8192
  else if v = 0x02030000 then 4096
  else if v = 0x00010000 then 1024
  else if v = 0x00020000 then 512
  else if v = 0x00030000 then 256
  else 2048

/-- `set_ctrl`: the reset bit clears itself. -/
def setCtrl (s : E1000State) (_index : ℕ) (val : UInt32) : E1000State :=
  s.setMac MacReg.ctrl.index (val &&& ~~~ 0x04000000)

/-- `set_rx_control`. -/
def setRxControl (s : E1000State) (_index : ℕ) (val : UInt32) : E1000State :=
  { s.setMac MacReg.rctl.index val with
    rxbufSize := rxbufsize val, rxbufMinShift := ((val / 0x100) &&& 3) + 1 }

/-- `phy_regcap`: bit 0 allows to read the register of the PHY, bit 1 to write it. -/
def phyRegcap : ℕ → UInt8
  | 0x00 => 3
  | 0x01 => 1
  | 0x02 => 1
  | 0x03 => 1
  | 0x04 => 3
  | 0x05 => 1
  | 0x09 => 3
  | 0x0A => 1
  | 0x10 => 3
  | 0x11 => 1
  | 0x14 => 3
  | 0x15 => 1
  | _ => 0

/-- `set_mdic`: read or write a register of the PHY; only the PHY number one exists. -/
def setMdic (s : E1000State) (_index : ℕ) (val : UInt32) : E1000State :=
  let data := val &&& 0xffff
  let addr := ((val &&& 0x001f0000) >>> 16).toNat
  let finish (s : E1000State) (val : UInt32) : E1000State :=
    setIcs (s.setMac MacReg.mdic.index (val ||| 0x10000000)) 0 0x200
  if (val &&& 0x03e00000) >>> 21 ≠ 1 then finish s (s.macReg MacReg.mdic.index ||| 0x40000000)
  else if val &&& 0x08000000 ≠ 0 then
    if phyRegcap addr &&& 1 = 0 then finish s (val ||| 0x40000000)
    else finish s ((val ^^^ data) ||| (s.phyReg addr).toUInt32)
  else if val &&& 0x04000000 ≠ 0 then
    if phyRegcap addr &&& 2 = 0 then finish s (val ||| 0x40000000)
    else finish { s with phyReg := setReg s.phyReg addr data.toUInt16 } val
  else finish s val

/-- `set_eecd`: clock one bit in or out of the EEPROM's serial interface. -/
def setEecd (s : E1000State) (_index : ℕ) (val : UInt32) : E1000State :=
  let oldval := s.eecdState.oldEecd
  let eecd : EecdState := { s.eecdState with oldEecd := val &&& 0x77 }
  if val &&& 2 = 0 then { s with eecdState := eecd }
  else
    let eecd : EecdState := if (val ^^^ oldval) &&& 2 ≠ 0 then
        { eecd with valIn := 0, bitnumIn := 0, bitnumOut := 0, reading := 0 }
      else eecd
    if (val ^^^ oldval) &&& 1 = 0 then { s with eecdState := eecd }
    else if val &&& 1 = 0 then { s with eecdState := { eecd with bitnumOut := eecd.bitnumOut + 1 } }
    else
      let valIn := eecd.valIn <<< 1 ||| (if val &&& 4 ≠ 0 then 1 else 0)
      let eecd : EecdState := { eecd with valIn, bitnumIn := eecd.bitnumIn + 1 }
      if eecd.bitnumIn = 9 ∧ eecd.reading = 0 then
        { s with eecdState := { eecd with
            bitnumOut := (((valIn &&& 0x3f) <<< 4) - 1).toUInt16
            reading := if (valIn >>> 6) &&& 7 = 6 then 1 else 0 } }
      else { s with eecdState := eecd }

/-- What a register's entry in `macreg_writeops` does: change the device, or act beyond it. -/
inductive WriteOp where
  | device (handler : E1000State → ℕ → UInt32 → E1000State)
  | setTctl
  | e1000SetAtqTail

/-- An entry of `macreg_writeops`: the registers from `first` to `last` share a handler. -/
structure WriteEntry where
  first : ℕ
  last : ℕ
  op : WriteOp

/-- The register has this entry. -/
def WriteEntry.Covers (entry : WriteEntry) (index : ℕ) : Prop :=
  entry.first ≤ index ∧ index ≤ entry.last

instance (entry : WriteEntry) (index : ℕ) : Decidable (entry.Covers index) :=
  inferInstanceAs (Decidable (_ ∧ _))

/-- An entry for one register. -/
def MacReg.entry (reg : MacReg) (op : WriteOp) : WriteEntry := ⟨reg.index, reg.index, op⟩

/-- `putreg`: the register is written as it is. -/
def putreg (reg : MacReg) : WriteEntry := reg.entry (.device macWritereg)

/-- `macreg_writeops`. -/
def macregWriteops : List WriteEntry :=
  [putreg .pba, putreg .eerd, putreg .swsm, putreg .wufc, putreg .tdbal, putreg .tdbah,
    putreg .txdctl, putreg .rdbah, putreg .rdbal, putreg .ledctl, putreg .vet,
    MacReg.tdlen.entry (.device setDlen), MacReg.rdlen.entry (.device setDlen),
    MacReg.tctl.entry .setTctl, MacReg.tdt.entry .setTctl, MacReg.mdic.entry (.device setMdic),
    MacReg.ics.entry (.device setIcs), MacReg.tdh.entry (.device set16bit),
    MacReg.rdh.entry (.device set16bit), MacReg.rdt.entry (.device setRdt),
    MacReg.imc.entry (.device setImc), MacReg.ims.entry (.device setIms),
    MacReg.icr.entry (.device setIcr), MacReg.eecd.entry (.device setEecd),
    MacReg.rctl.entry (.device setRxControl), MacReg.ctrl.entry (.device setCtrl),
    ⟨MacReg.ra.index, MacReg.ra.index + 31, .device macWritereg⟩,
    ⟨MacReg.mta.index, MacReg.mta.index + 127, .device macWritereg⟩,
    ⟨MacReg.vfta.index, MacReg.vfta.index + 127, .device macWritereg⟩,
    ⟨pfAtqbah, pfAtqbah, .device macWritereg⟩, ⟨pfAtqbal, pfAtqbal, .device macWritereg⟩,
    ⟨pfAtqlen, pfAtqlen, .device macWritereg⟩, ⟨pfAtqh, pfAtqh, .device macWritereg⟩,
    ⟨pfAtqt, pfAtqt, .e1000SetAtqTail⟩]

/-- The handler of a register, if it has one. -/
def writeopOf (index : ℕ) : Option WriteOp :=
  (macregWriteops.find? fun entry => entry.Covers index).map WriteEntry.op

/-- Change the device. -/
def modifyDev (f : E1000State → E1000State) : DeviceM Unit := fun m =>
  .pure ((), { m with dev := f m.dev })

section Writes

variable (startXmit : Machine → Machine)

/-- `set_tctl`, which also serves the transmit queue's tail. -/
def setTctl (index : ℕ) (val : UInt32) : DeviceM Unit := do
  setMacReg index val
  setMacReg MacReg.tdt.index ((← get).dev.macReg MacReg.tdt.index &&& 0xffff)
  modify startXmit

/-- Call the handler of a register. -/
def WriteOp.run : WriteOp → ℕ → UInt32 → DeviceM Unit
  | .device handler, index, val => modifyDev fun s => handler s index val
  | .setTctl, index, val => Device.setTctl startXmit index val
  | .e1000SetAtqTail, index, val => Device.e1000SetAtqTail index val

/-- The register at an address, `(addr & 0x1ffff) >> 2`. -/
def regIndex (addr : ℕ) : ℕ := addr % 0x20000 / 4

/-- `e1000_mmio_writel`; writes to other registers have no effect. -/
def e1000MmioWritel (addr : ℕ) (val : UInt32) : DeviceM Unit :=
  match writeopOf (regIndex addr) with
  | some op => op.run startXmit (regIndex addr) val
  | none => pure ()

end Writes

/-- The handlers that act beyond the device belong to three registers. -/
theorem macregWriteops_acting : ∀ entry ∈ macregWriteops,
    (∃ handler, entry.op = .device handler) ∨ entry = MacReg.tctl.entry .setTctl ∨
      entry = MacReg.tdt.entry .setTctl ∨ entry = ⟨pfAtqt, pfAtqt, .e1000SetAtqTail⟩ := by
  simp only [macregWriteops, List.forall_mem_cons]
  simp [MacReg.entry, putreg]

/-- Only a write to one of these three registers acts beyond the device. -/
theorem writeopOf_device {index : ℕ} {op : WriteOp} (h : writeopOf index = some op)
    (htctl : index ≠ MacReg.tctl.index) (htdt : index ≠ MacReg.tdt.index) (htail : index ≠ pfAtqt) :
    ∃ handler, op = .device handler := by
  obtain ⟨entry, hfind, rfl⟩ := Option.map_eq_some_iff.mp h
  have hcovers : entry.Covers index := by simpa using List.find?_some hfind
  obtain ⟨hfirst, hlast⟩ := hcovers
  rcases macregWriteops_acting entry (List.mem_of_find?_eq_some hfind) with
    hdevice | rfl | rfl | rfl
  · exact hdevice
  · exact absurd (Nat.le_antisymm hlast hfirst) htctl
  · exact absurd (Nat.le_antisymm hlast hfirst) htdt
  · exact absurd (Nat.le_antisymm hlast hfirst) htail

/-- The tail handler belongs to `PF_ATQT`. -/
theorem writeopOf_tail {index : ℕ} (h : writeopOf index = some .e1000SetAtqTail) :
    index = pfAtqt := by
  obtain ⟨entry, hfind, hop⟩ := Option.map_eq_some_iff.mp h
  have hcovers : entry.Covers index := by simpa using List.find?_some hfind
  rcases macregWriteops_acting entry (List.mem_of_find?_eq_some hfind) with
    ⟨handler, hdevice⟩ | rfl | rfl | rfl
  · rw [hdevice] at hop
    contradiction
  · contradiction
  · contradiction
  · exact Nat.le_antisymm hcovers.2 hcovers.1

end VirtualFirmware.Device
