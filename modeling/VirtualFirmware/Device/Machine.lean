import VirtualFirmware.Adminq.Descriptor
import VirtualFirmware.Library.Interaction
import VirtualFirmware.Library.Records
import VirtualFirmware.Messaging.Channel

/-!
# The emulated device and the machine around it

`E1000State` keeps the fields that the guest's register writes and the migration format
use. The machine adds guest RAM, what the coming heap allocations will contain, and a trace
of what the admin queue did to its ring, which no code reads. Device code runs on the
machine and performs socket calls whose results come from outside.
-/

namespace VirtualFirmware.Device

open Library Messaging Adminq

/-- `INVALID_SOCKET`. -/
def invalidSocket : Int := -1

/-- `defreg`: the index of a register in `mac_reg`. -/
def defreg (offset : ℕ) : ℕ := offset / 4

/-- `PNPMMIO_SIZE`, the size of the register window. -/
def pnpmmioSize : ℕ := 0x20000

/-- `PF_ATQBAH`, the high half of the ring's base address. -/
def pfAtqbah : ℕ := defreg 0x6000

/-- `PF_ATQBAL`, the low half of the ring's base address. -/
def pfAtqbal : ℕ := defreg 0x6004

/-- `PF_ATQH`, the index of the next descriptor the device takes. -/
def pfAtqh : ℕ := defreg 0x6008

/-- `PF_ATQLEN`, the ring's length and its enable bit. -/
def pfAtqlen : ℕ := defreg 0x600C

/-- `PF_ATQT`, the index behind the last descriptor the driver posted. -/
def pfAtqt : ℕ := defreg 0x6010

/-- `E1000_PF_ATQLEN_ATQENABLE_MASK`. -/
def atqEnableMask : UInt32 := 0x80000000

/-- `struct e1000_tx`, the transmit context, as far as it is saved. -/
structure E1000Tx where
  header : ℕ → UInt8
  data : ℕ → UInt8
  size : UInt16
  sumNeeded : UInt8
  ipcss : UInt8
  ipcso : UInt8
  ipcse : UInt16
  tucss : UInt8
  tucso : UInt8
  tucse : UInt16
  hdrLen : UInt8
  mss : UInt16
  paylen : UInt32
  tsoFrames : UInt16
  ip : UInt8
  tcp : UInt8
deriving Inhabited

/-- `eecd_state`, the serial interface of the EEPROM. -/
structure EecdState where
  valIn : UInt32
  bitnumIn : UInt16
  bitnumOut : UInt16
  reading : UInt16
  oldEecd : UInt32
deriving Inhabited

/-- `E1000State`, with the level of its interrupt line. -/
structure E1000State where
  macReg : ℕ → UInt32
  phyReg : ℕ → UInt16
  eepromData : ℕ → UInt16
  rxbufSize : UInt32
  rxbufMinShift : UInt32
  checkRxov : Bool
  tx : E1000Tx
  fs : Int
  eecdState : EecdState
  irq : Bool
deriving Inhabited

/-- Store into one entry of a register array. -/
def setReg {A : Type} (regs : ℕ → A) (index : ℕ) (value : A) : ℕ → A :=
  fun i => if i = index then value else regs i

/-- The stored entry holds the value. -/
@[simp] theorem setReg_self {A : Type} (regs : ℕ → A) (index : ℕ) (value : A) :
    setReg regs index value index = value := by
  simp [setReg]

/-- The other entries keep theirs. -/
theorem setReg_of_ne {A : Type} (regs : ℕ → A) {index i : ℕ} (value : A) (h : i ≠ index) :
    setReg regs index value i = regs i := by
  simp [setReg, h]

/-- The device after an assignment to one register. -/
def E1000State.setMac (dev : E1000State) (index : ℕ) (value : UInt32) : E1000State :=
  { dev with macReg := setReg dev.macReg index value }

/-- The assigned register holds the value. -/
@[simp] theorem E1000State.setMac_self (dev : E1000State) (index : ℕ) (value : UInt32) :
    (dev.setMac index value).macReg index = value :=
  setReg_self dev.macReg index value

/-- The other registers keep theirs. -/
theorem E1000State.setMac_of_ne (dev : E1000State) {index i : ℕ} (value : UInt32) (h : i ≠ index) :
    (dev.setMac index value).macReg i = dev.macReg i :=
  setReg_of_ne dev.macReg value h

/-- Assigning twice keeps the second value. -/
@[simp] theorem E1000State.setMac_setMac (dev : E1000State) (index : ℕ) (first second : UInt32) :
    (dev.setMac index first).setMac index second = dev.setMac index second := by
  simp only [setMac, E1000State.mk.injEq, and_true]
  funext i
  by_cases h : i = index
  · rw [h, setReg_self, setReg_self]
  · rw [setReg_of_ne _ _ h, setReg_of_ne _ _ h, setReg_of_ne _ _ h]

/-- The device with another socket. -/
def E1000State.withFs (dev : E1000State) (fs : Int) : E1000State := { dev with fs := fs }

/-- The socket is no register. -/
@[simp] theorem E1000State.withFs_macReg (dev : E1000State) (fs : Int) :
    (dev.withFs fs).macReg = dev.macReg := rfl

/-- The registers that place the ring in memory. -/
structure RingRegs where
  bah : UInt32
  bal : UInt32
  len : UInt32
deriving DecidableEq, Repr

/-- What the admin queue did to its ring, with the ring programmed at that moment. -/
inductive AtqEvent where
  | posted (addr : UInt64) (desc : AqDesc)
  | fetched (ring : RingRegs) (addr : UInt64) (desc : AqDesc)
  | answered (desc : AqDesc)
  | writtenBack (ring : RingRegs) (addr : UInt64) (desc : AqDesc)
deriving DecidableEq, Repr

/-- The device, guest RAM, the contents of the coming heap allocations, and the trace. -/
structure Machine where
  dev : E1000State
  ram : AddressSpace
  heap : ℕ → Region
  trace : List AtqEvent
deriving Inhabited

/-- A socket call of the device. -/
inductive DeviceOp where
  | locate
  | close (fs : Int)
  | message (fs : Int) (op : MessageOp)

/-- What the call returns. -/
abbrev DeviceReply : DeviceOp → Type
  | .locate => Int
  | .close _ => Unit
  | .message _ op => MessageReply op

/-- Device code: it changes the machine and performs socket calls. -/
abbrev DeviceM := StateT Machine (Interaction DeviceOp DeviceReply)

/-- Perform one socket call. -/
def call (op : DeviceOp) : DeviceM (DeviceReply op) := fun m =>
  .perform op fun reply => .pure (reply, m)

/-- `senddata` on a socket. -/
def senddata (fs : Int) (data : Region) (length : UInt16) : DeviceM Sent :=
  call (.message fs (.senddata data length))

/-- `recvdata` on a socket. -/
def recvdata (fs : Int) (data : Region) (length : UInt16) : DeviceM Received :=
  call (.message fs (.recvdata data length))

/-- The machine after one allocation. -/
def Machine.allocated (m : Machine) : Machine := { m with heap := fun n => m.heap (n + 1) }

/-- `qemu_malloc`, which ends the process rather than return `NULL`. -/
def qemuMalloc (_size : ℕ) : DeviceM (Option Region) := fun m =>
  .pure (some (m.heap 0), m.allocated)

/-- The size of the block that `qemu_malloc` returns; it asks for one byte rather than for none. -/
def mallocSize (size : ℕ) : ℕ := if size = 0 then 1 else size

/-- `cpu_physical_memory_read` from guest RAM. -/
def cpuPhysicalMemoryRead (addr : UInt64) (count : ℕ) : DeviceM (List UInt8) := fun m =>
  .pure (m.ram.read addr count, m)

/-- `cpu_physical_memory_write` to guest RAM. -/
def cpuPhysicalMemoryWrite (addr : UInt64) (bytes : List UInt8) : DeviceM Unit := fun m =>
  .pure ((), { m with ram := m.ram.write addr bytes })

/-- Assign to a register. -/
def setMacReg (index : ℕ) (value : UInt32) : DeviceM Unit := fun m =>
  .pure ((), { m with dev := m.dev.setMac index value })

/-- Assign to `s->fs`. -/
def setFs (fs : Int) : DeviceM Unit := fun m =>
  .pure ((), { m with dev := m.dev.withFs fs })

/-- Note an access to the ring in the trace. -/
def note (event : AtqEvent) : DeviceM Unit := fun m =>
  .pure ((), { m with trace := m.trace ++ [event] })

/-- The ring the device is programmed with. -/
def E1000State.ring (dev : E1000State) : RingRegs :=
  ⟨dev.macReg pfAtqbah, dev.macReg pfAtqbal, dev.macReg pfAtqlen⟩

/-- The base address of a programmed ring. -/
def RingRegs.base (ring : RingRegs) : UInt64 := (ring.bah.toUInt64 <<< 32) + ring.bal.toUInt64

/-- The number of slots of a programmed ring, as the device reads it. -/
def RingRegs.ringLen (ring : RingRegs) : UInt16 := (ring.len &&& ~~~ atqEnableMask).toUInt16

/-- The address of a slot. -/
def RingRegs.slot (ring : RingRegs) (index : UInt32) : UInt64 :=
  ring.base + UInt64.ofNat AqDesc.size * index.toUInt64

/-- The slots are records that follow each other. -/
theorem RingRegs.slot_eq (ring : RingRegs) (index : UInt32) :
    ring.slot index = recordAt AqDesc.size ring.base index.toNat := by
  rw [slot, add_mul_eq_recordAt, UInt32.toNat_toUInt64]

end VirtualFirmware.Device
