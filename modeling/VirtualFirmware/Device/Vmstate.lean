import VirtualFirmware.Device.MacWrites
import VirtualFirmware.Library.SavedFields

/-!
# The migration format of the device

`vmstate_e1000` lists what is saved of the device, after the PCI device it contains. Loading
reads the same list; the PCI side refuses a configuration space that does not fit. Whatever
is not listed stays as the reset of the loading device left it.
-/

namespace VirtualFirmware.Device

open Library

/-- The PCI side of the device: its configuration space and which bits of it are compared with
what is loaded. -/
structure PciDevice where
  versionId : UInt32
  config : ℕ → UInt8
  cmask : ℕ → UInt8
  wmask : ℕ → UInt8
  w1cmask : ℕ → UInt8
deriving Inhabited

/-- The whole device. -/
structure E1000Device where
  pci : PciDevice
  state : E1000State
deriving Inhabited

/-- `PCI_CONFIG_SPACE_SIZE`. -/
def pciConfigSpaceSize : ℕ := 256

/-- `vmstate_pci_device`, saved: the version, the configuration space and the four interrupt
pins, of which the device drives the first. -/
def savePci (d : E1000Device) : List UInt8 :=
  Codec.be32.encode d.pci.versionId ++ (List.range pciConfigSpaceSize).map d.pci.config ++
    [if d.state.irq then 1 else 0, 0, 0, 0].flatMap Codec.be32.encode

/-- The loaded configuration space differs from the device's in a bit that must not differ. -/
def pciConfigDiffers (pci : PciDevice) (config : List UInt8) : Bool :=
  (List.range pciConfigSpaceSize).any fun i =>
    (config.getD i 0 ^^^ pci.config i) &&& pci.cmask i &&& ~~~ pci.wmask i &&& ~~~ pci.w1cmask i ≠ 0

/-- `get_pci_irq_state`: one pin. -/
def loadPin (bytes : List UInt8) : Option (Bool × List UInt8) := do
  let (pin, rest) ← Codec.be32.read bytes
  if pin ≠ 1 ∧ pin ≠ 0 then none else some (pin = 1, rest)

/-- `vmstate_pci_device`, loaded; `none` when the load is refused. -/
def loadPci (bytes : List UInt8) (d : E1000Device) : Option (E1000Device × List UInt8) := do
  let (versionId, rest) ← Codec.be32.read bytes
  if versionId.toInt32 < d.pci.versionId.toInt32 then none
  let config := rest.take pciConfigSpaceSize
  if rest.length < pciConfigSpaceSize ∨ pciConfigDiffers d.pci config then none
  let (irq, rest) ← loadPin (rest.drop pciConfigSpaceSize)
  let (_, rest) ← loadPin rest
  let (_, rest) ← loadPin rest
  let (_, rest) ← loadPin rest
  some (⟨{ d.pci with config := fun i => config.getD i 0 }, { d.state with irq }⟩, rest)

/-- A field of the EEPROM's serial interface. -/
def eecdField {V : Type} (codec : Codec V) (view : EecdState → V)
    (update : EecdState → V → EecdState) :
    SavedField E1000State :=
  .scalar codec (fun s => view s.eecdState) fun s v => { s with eecdState := update s.eecdState v }

/-- A field of the transmit context. -/
def txField {V : Type} (codec : Codec V) (view : E1000Tx → V) (update : E1000Tx → V → E1000Tx) :
    SavedField E1000State :=
  .scalar codec (fun s => view s.tx) fun s v => { s with tx := update s.tx v }

/-- The scalar fields that are no registers. -/
def scalarFields : List (SavedField E1000State) :=
  [.unused 4,
    .scalar .be32 (·.rxbufSize) ({ · with rxbufSize := · }),
    .scalar .be32 (·.rxbufMinShift) ({ · with rxbufMinShift := · }),
    eecdField .be32 (·.valIn) ({ · with valIn := · }),
    eecdField .be16 (·.bitnumIn) ({ · with bitnumIn := · }),
    eecdField .be16 (·.bitnumOut) ({ · with bitnumOut := · }),
    eecdField .be16 (·.reading) ({ · with reading := · }),
    eecdField .be32 (·.oldEecd) ({ · with oldEecd := · }),
    txField .byte (·.ipcss) ({ · with ipcss := · }),
    txField .byte (·.ipcso) ({ · with ipcso := · }),
    txField .be16 (·.ipcse) ({ · with ipcse := · }),
    txField .byte (·.tucss) ({ · with tucss := · }),
    txField .byte (·.tucso) ({ · with tucso := · }),
    txField .be16 (·.tucse) ({ · with tucse := · }),
    txField .be32 (·.paylen) ({ · with paylen := · }),
    txField .byte (·.hdrLen) ({ · with hdrLen := · }),
    txField .be16 (·.mss) ({ · with mss := · }),
    txField .be16 (·.size) ({ · with size := · }),
    txField .be16 (·.tsoFrames) ({ · with tsoFrames := · }),
    txField .byte (·.sumNeeded) ({ · with sumNeeded := · }),
    txField .byte (·.ip) ({ · with ip := · }),
    txField .byte (·.tcp) ({ · with tcp := · })]

/-- The arrays that are no registers of the MAC. -/
def arrayFields : List (SavedField E1000State) :=
  SavedField.array .byte 0 256 (·.tx.header)
      (fun s i v => { s with tx := { s.tx with header := setReg s.tx.header i v } }) ++
    SavedField.array .byte 0 0x10000 (·.tx.data)
      (fun s i v => { s with tx := { s.tx with data := setReg s.tx.data i v } }) ++
    SavedField.array .be16 0 64 (·.eepromData)
      (fun s i v => { s with eepromData := setReg s.eepromData i v }) ++
    SavedField.array .be16 0 0x20 (·.phyReg)
      (fun s i v => { s with phyReg := setReg s.phyReg i v })

/-- A register of the MAC. -/
def macField (index : ℕ) : SavedField E1000State :=
  .scalar .be32 (·.macReg index) (·.setMac index ·)

/-- The registers that are saved one by one. -/
def savedMacScalars : List MacReg :=
  [.ctrl, .eecd, .eerd, .gprc, .gptc, .icr, .ics, .imc, .ims, .ledctl, .manc, .mdic, .mpc, .pba,
    .rctl, .rdbah, .rdbal, .rdh, .rdlen, .rdt, .status, .swsm, .tctl, .tdbah, .tdbal, .tdh, .tdlen,
    .tdt, .torh, .torl, .toth, .totl, .tpr, .tpt, .txdctl, .wufc, .vet]

/-- The arrays of registers that are saved, each with its length. -/
def savedMacArrays : List (MacReg × ℕ) := [(.ra, 32), (.mta, 128), (.vfta, 128)]

/-- The indices of the registers that are saved. -/
def savedMacRegs : List ℕ :=
  savedMacScalars.map MacReg.index ++
    savedMacArrays.flatMap fun array => List.range' array.1.index array.2

/-- `is_version_1`. -/
def isVersion1 (versionId : ℕ) : Bool := versionId = 1

/-- `vmstate_e1000`, the fields after the PCI device. -/
def vmstateE1000 (versionId : ℕ) : List (SavedField E1000State) :=
  (if isVersion1 versionId then [.unused 4] else []) ++ scalarFields ++ arrayFields ++
    savedMacRegs.map macField

/-- Save the device in version 2. -/
def saveE1000 (d : E1000Device) : List UInt8 :=
  savePci d ++ SavedField.save (vmstateE1000 2) d.state

/-- Load a device that was saved in the given version; `none` when the load is refused. -/
def loadE1000 (versionId : ℕ) (bytes : List UInt8) (d : E1000Device) :
    Option (E1000Device × List UInt8) := do
  if versionId > 2 ∨ versionId < 1 then none
  let (d, rest) ← loadPci bytes d
  let (state, rest) ← SavedField.load (vmstateE1000 versionId) rest d.state
  some (⟨d.pci, state⟩, rest)

/-- `mac_reg_init`. -/
def macRegInit (index : ℕ) : UInt32 :=
  if index = MacReg.pba.index then 0x00100030
  else if index = MacReg.ledctl.index then 0x602
  else if index = MacReg.ctrl.index then 0x00100000 ||| 0x00040000 ||| 0x00000200 ||| 0x00000040
  else if index = MacReg.status.index then
    0x80000000 ||| 0x00080000 ||| 0x00000300 ||| 0x00000400 ||| 0x00000080 |||
      0x00000001 ||| 0x00000002
  else if index = MacReg.manc.index then
    0x00200000 ||| 0x00020000 ||| 0x00002000 ||| 0x00000200 ||| 0x00000100
  else 0

/-- `phy_reg_init`. -/
def phyRegInit : ℕ → UInt16
  | 0x00 => 0x1140
  | 0x01 => 0x796d
  | 0x02 => 0x141
  | 0x03 => 0xc20
  | 0x04 => 0xde1
  | 0x05 => 0x1e0
  | 0x09 => 0x0e00
  | 0x0A => 0x3c00
  | 0x10 => 0x360
  | 0x11 => 0xac00
  | 0x14 => 0x0d60
  | _ => 0

/-- The transmit context, cleared. -/
def clearedTx : E1000Tx :=
  { header := fun _ => 0, data := fun _ => 0, size := 0, sumNeeded := 0, ipcss := 0, ipcso := 0,
    ipcse := 0, tucss := 0, tucso := 0, tucse := 0, hdrLen := 0, mss := 0, paylen := 0,
    tsoFrames := 0, ip := 0, tcp := 0 }

/-- `e1000_reset`. -/
def e1000Reset (s : E1000State) : E1000State :=
  { s with phyReg := phyRegInit, macReg := macRegInit, rxbufMinShift := 1, tx := clearedTx }

end VirtualFirmware.Device
