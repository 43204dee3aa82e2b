import VirtualFirmware.Device.MacWrites

/-!
# The device's register reads

`e1000_mmio_readl` looks the register up in `macreg_readops`. Reading the interrupt cause and
some of the statistics clears them.
-/

namespace VirtualFirmware.Device

open Library

/-- What a register's entry in `macreg_readops` does: return a value and change the device. -/
abbrev ReadOp := E1000State → ℕ → UInt32 × E1000State

/-- `mac_readreg`. -/
def macReadreg : ReadOp := fun s index => (s.macReg index, s)

/-- `mac_icr_read`: reading the causes clears them. -/
def macIcrRead : ReadOp := fun s _index => (s.macReg MacReg.icr.index, setInterruptCause s 0 0)

/-- `mac_read_clr4`: reading the counter clears it. -/
def macReadClr4 : ReadOp := fun s index => (s.macReg index, s.setMac index 0)

/-- `mac_read_clr8`: reading the counter's upper half clears both halves. -/
def macReadClr8 : ReadOp := fun s index => (s.macReg index, (s.setMac index 0).setMac (index - 1) 0)

/-- `get_eecd`: the next bit of the EEPROM's serial interface. -/
def getEecd : ReadOp := fun s _index =>
  let ret : UInt32 := 0x180 ||| s.eecdState.oldEecd
  let word := s.eepromData ((s.eecdState.bitnumOut >>> 4) &&& 0x3f).toNat
  let bit := (word >>> ((s.eecdState.bitnumOut &&& 0xf) ^^^ 0xf)) &&& 1
  (if s.eecdState.reading = 0 ∨ bit ≠ 0 then ret ||| 8 else ret, s)

/-- `flash_eerd_read`: the EEPROM word that was asked for, once reading was started. -/
def flashEerdRead : ReadOp := fun s _index =>
  let eerd := s.macReg MacReg.eerd.index
  let r := eerd &&& ~~~ 1
  let index := r >>> 8
  (if eerd &&& 1 = 0 then eerd
  else if index > 0x3f then 0x10 ||| r
  else ((s.eepromData index.toNat).toUInt32 <<< 16) ||| 0x10 ||| r, s)

/-- An entry of `macreg_readops`: the registers from `first` to `last` share a handler. -/
structure ReadEntry where
  first : ℕ
  last : ℕ
  op : ReadOp

/-- `getreg`: the register is read as it is. -/
def getreg (reg : MacReg) : ReadEntry := ⟨reg.index, reg.index, macReadreg⟩

/-- `CRCERRS`, the first of the statistics registers. -/
def crcerrs : ℕ := defreg 0x4000

/-- `macreg_readops`. -/
def macregReadops : List ReadEntry :=
  [getreg .pba, getreg .rctl, getreg .tdh, getreg .txdctl, getreg .wufc, getreg .tdt, getreg .ctrl,
    getreg .ledctl, getreg .manc, getreg .mdic, getreg .swsm, getreg .status, getreg .torl,
    getreg .totl, getreg .ims, getreg .tctl, getreg .rdh, getreg .rdt, getreg .vet, getreg .ics,
    getreg .tdbal, getreg .tdbah, getreg .rdbah, getreg .rdbal, getreg .tdlen, getreg .rdlen,
    ⟨MacReg.toth.index, MacReg.toth.index, macReadClr8⟩,
    ⟨MacReg.torh.index, MacReg.torh.index, macReadClr8⟩,
    ⟨MacReg.gprc.index, MacReg.gprc.index, macReadClr4⟩,
    ⟨MacReg.gptc.index, MacReg.gptc.index, macReadClr4⟩,
    ⟨MacReg.tpr.index, MacReg.tpr.index, macReadClr4⟩,
    ⟨MacReg.tpt.index, MacReg.tpt.index, macReadClr4⟩,
    ⟨MacReg.icr.index, MacReg.icr.index, macIcrRead⟩,
    ⟨MacReg.eecd.index, MacReg.eecd.index, getEecd⟩,
    ⟨MacReg.eerd.index, MacReg.eerd.index, flashEerdRead⟩, ⟨crcerrs, MacReg.mpc.index, macReadreg⟩,
    ⟨MacReg.ra.index, MacReg.ra.index + 31, macReadreg⟩,
    ⟨MacReg.mta.index, MacReg.mta.index + 127, macReadreg⟩,
    ⟨MacReg.vfta.index, MacReg.vfta.index + 127, macReadreg⟩,
    ⟨pfAtqbah, pfAtqbah, macReadreg⟩, ⟨pfAtqbal, pfAtqbal, macReadreg⟩,
    ⟨pfAtqlen, pfAtqlen, macReadreg⟩,
    ⟨pfAtqh, pfAtqh, macReadreg⟩, ⟨pfAtqt, pfAtqt, macReadreg⟩]

/-- The handler of a register, if it can be read. -/
def readopOf (index : ℕ) : Option ReadOp :=
  (macregReadops.find? fun entry => entry.first ≤ index ∧ index ≤ entry.last).map ReadEntry.op

/-- `e1000_mmio_readl`; other registers read as zero. -/
def e1000MmioReadl (addr : ℕ) (s : E1000State) : UInt32 × E1000State :=
  match readopOf (regIndex addr) with
  | some op => op s (regIndex addr)
  | none => (0, s)

/-- `e1000_mmio_readw`. -/
def e1000MmioReadw (addr : ℕ) (s : E1000State) : UInt32 × E1000State :=
  let (val, s) := e1000MmioReadl (addr - addr % 4) s
  ((val >>> UInt32.ofNat (8 * (addr % 4))) &&& 0xffff, s)

/-- `e1000_mmio_readb`. -/
def e1000MmioReadb (addr : ℕ) (s : E1000State) : UInt32 × E1000State :=
  let (val, s) := e1000MmioReadl (addr - addr % 4) s
  ((val >>> UInt32.ofNat (8 * (addr % 4))) &&& 0xff, s)

end VirtualFirmware.Device
