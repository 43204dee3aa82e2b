import VirtualFirmware.Device.MacWrites
import VirtualFirmware.Device.RingSemantics
import VirtualFirmware.Library.LockDiscipline

/-!
# The driver's side of the admin queue

The driver keeps a ring of descriptors in guest RAM, programs the device with it, and posts
one command at a time: it fills the slot `next_to_use`, moves on, writes the tail register
and polls the slot for the done flag. The lock that protects the ring excludes other calls; the code
is written once, for programs that note what happens to the lock and for programs that do not.
Cleaning the ring before a command is compiled out of the last version of the driver.
-/

namespace VirtualFirmware.Driver

open Library Adminq Device

/-- `hw->aq`, as far as the send queue uses it. The memory of a slot and of the buffer that
belongs to it is known by its address. -/
structure AdminqInfo where
  numAsqEntries : UInt16
  asqBufSize : UInt16
  dma : UInt64
  count : UInt16
  nextToUse : UInt16
  asqBi : ℕ → UInt64

/-- Driver code: it changes the driver's own state and drives the device. -/
abbrev DriverM := StateT AdminqInfo DeviceM

/-- `E1000_AQ_FLAG_SI`. -/
def flagSI : UInt16 := 0x2000

/-- `E1000_AQ_ERR_INVALID_BUFF_SIZE`. -/
def errInvalidBuffSize : UInt16 := 0xfffd

/-- `E1000_AQ_ERR_QUEUE_FULL`. -/
def errQueueFull : UInt16 := 0xfffe

/-- `E1000_AQ_ERR_TIMEOUT`. -/
def errTimeout : UInt16 := 0xffff

/-- `e1000_alloc_adminq_rings`, given the address of the memory it was handed. -/
def e1000AllocAdminqRings (dma : UInt64) (aq : AdminqInfo) : AdminqInfo :=
  { aq with dma, count := aq.numAsqEntries, nextToUse := 0 }

/-- `E1000_ADMINQ_DESC`. -/
def adminqDesc (aq : AdminqInfo) (i : UInt16) : UInt64 :=
  aq.dma + UInt64.ofNat AqDesc.size * i.toUInt64

/-- The driver's slots are records that follow each other. -/
theorem adminqDesc_eq (aq : AdminqInfo) (i : UInt16) :
    adminqDesc aq i = recordAt AqDesc.size aq.dma i.toNat := by
  rw [adminqDesc, add_mul_eq_recordAt, UInt16.toNat_toUInt64]

/-- The slot that the next command goes to. -/
def AdminqInfo.slot (aq : AdminqInfo) : UInt64 := adminqDesc aq aq.nextToUse

/-- Bump the tail. -/
def AdminqInfo.bumped (aq : AdminqInfo) : AdminqInfo :=
  let next := aq.nextToUse + 1
  { aq with nextToUse := if next = aq.count then 0 else next }

/-- A command: its descriptor and, if it is indirect, the caller's buffer with its size. -/
structure AsqCall where
  desc : AqDesc
  buff : Option Region
  buffSize : UInt16

/-- What the caller gets back. -/
structure AsqResult where
  status : UInt16
  desc : AqDesc
  buff : Option Region

/-- Copy bytes to guest RAM. -/
def memcpyTo (addr : UInt64) (bytes : List UInt8) : DriverM Unit :=
  cpuPhysicalMemoryWrite addr bytes

/-- Copy bytes from guest RAM. -/
def memcpyFrom (addr : UInt64) (count : ℕ) : DriverM (List UInt8) :=
  cpuPhysicalMemoryRead addr count

/-- Copy the caller's buffer to the slot's own and point the descriptor on the ring to it. -/
def attachBuffer (buff : Option Region) (buffSize : UInt16) : DriverM Unit := do
  match buff with
  | none => return
  | some buff =>
    let aq ← get
    let dma := aq.asqBi aq.nextToUse.toNat
    memcpyTo dma (buff.load buffSize.toNat)
    memcpyTo (aq.slot + 4) (leBytes 2 buffSize.toNat)
    memcpyTo (aq.slot + 24) (leBytes 4 (dma >>> 32).toNat)
    memcpyTo (aq.slot + 28) (leBytes 4 (dma &&& 0xffffffff).toNat)

/-- The done flag of the descriptor in a slot. -/
def slotDone (slot : UInt64) : DriverM Bool := do
  let desc := AqDesc.ofBytes (← memcpyFrom slot AqDesc.size)
  return desc.flags &&& flagDD ≠ 0

/-- Look for the done flag once in a while until the time is up. -/
def pollSlot (slot : UInt64) : ℕ → DriverM Unit
  | 0 => return
  | attempts + 1 => do
    if ← slotDone slot then
      return
    pollSlot slot attempts

/-- Copy the descriptor and the buffer back to the caller if the command is done. -/
def collect (call : AsqCall) (desc : AqDesc) (slot bufAddr : UInt64) : DriverM AsqResult := do
  if ← slotDone slot then
    let desc := AqDesc.ofBytes (← memcpyFrom slot AqDesc.size)
    let bytes ← memcpyFrom bufAddr call.buffSize.toNat
    return { status := desc.retval, desc, buff := call.buff.map fun buff => buff.store bytes }
  else return { status := errTimeout, desc, buff := call.buff }

/-- The descriptor of a call, as it is copied to its slot. -/
def AsqCall.marked (call : AsqCall) : AqDesc :=
  { call.desc with flags := call.desc.flags ||| flagSI }

/-- What `asq_spinlock` protects. -/
inductive Shared where
  | ring
  | nextToUse
  | tail
deriving DecidableEq, Repr

/-- What the code of the send queue is run with: the driver's own steps, and notes about the lock
and about the machine around a tail write. -/
structure AsqPlatform (M : Type → Type) where
  driver {A : Type} : DriverM A → M A
  noteLock : LockEvent Shared → M Unit
  noteTail : Machine → Machine → M Unit

section Driver

variable (startXmit : Machine → Machine)

/-- `E1000_WRITE_REG`. -/
def writeReg (offset : ℕ) (val : UInt32) : DriverM Unit :=
  (e1000MmioWritel startXmit offset val : DeviceM Unit)

namespace AsqPlatform

variable {M : Type → Type} [Monad M] (p : AsqPlatform M)

/-- `spin_lock` of `asq_spinlock`. -/
def spinLock : M Unit := p.noteLock .acquire

/-- `spin_unlock` of `asq_spinlock`. -/
def spinUnlock : M Unit := p.noteLock .release

/-- `E1000_WRITE_REG` to the tail. -/
def writeTail (val : UInt32) : M Unit := do
  p.noteLock (.modify .tail)
  let before ← p.driver (get : DeviceM Machine)
  p.driver (writeReg startXmit 0x6010 val)
  let after ← p.driver (get : DeviceM Machine)
  p.noteTail before after

/-- `e1000_config_adminq_regs`. -/
def e1000ConfigAdminqRegs : M Unit := do
  let aq ← p.driver get
  p.driver (writeReg startXmit 0x6000 (aq.dma >>> 32).toUInt32)
  p.driver (writeReg startXmit 0x6004 (aq.dma &&& 0xffffffff).toUInt32)
  p.driver (writeReg startXmit 0x600C (aq.numAsqEntries.toUInt32 ||| atqEnableMask))
  p.writeTail startXmit 0
  p.driver (writeReg startXmit 0x6008 0)

/-- The label `asq_send_command_error`, through which every call leaves. -/
def asqSendCommandError (result : AsqResult) : M AsqResult := do
  p.spinUnlock
  return result

/-- `e1000_asq_send_command` once there is room for the command. -/
def postCommand (call : AsqCall) : M AsqResult := do
  let aq ← p.driver get
  p.noteLock (.modify .ring)
  p.driver (memcpyTo aq.slot call.marked.bytes)
  if call.buff.isSome then
    p.noteLock (.modify .ring)
  p.driver (attachBuffer call.buff call.buffSize)
  let desc := AqDesc.ofBytes (← p.driver (memcpyFrom aq.slot AqDesc.size))
  p.driver (note (.posted aq.slot desc) : DeviceM Unit)
  p.noteLock (.modify .nextToUse)
  p.driver (set aq.bumped)
  p.writeTail startXmit aq.bumped.nextToUse.toUInt32
  p.driver (pollSlot aq.slot 100)
  let result ← p.driver (collect call call.marked aq.slot (aq.asqBi aq.nextToUse.toNat))
  p.asqSendCommandError result

/-- `e1000_asq_send_command`. The ring is cleaned first, unless that is compiled out. -/
def e1000AsqSendCommand (clean : Option (M UInt16)) (call : AsqCall) : M AsqResult := do
  if call.buffSize > (← p.driver get).asqBufSize then
    p.asqSendCommandError { status := errInvalidBuffSize, desc := call.desc, buff := call.buff }
  else
    p.spinLock
    match clean with
    | none => p.postCommand startXmit call
    | some clean =>
      if (← clean) = 0 then
        p.asqSendCommandError { status := errQueueFull, desc := call.desc, buff := call.buff }
      else p.postCommand startXmit call

/-- `e1000_shutdown_adminq`. -/
def e1000ShutdownAdminq : M Int := do
  p.spinLock
  p.noteLock (.modify .ring)
  p.spinUnlock
  p.driver (writeReg startXmit 0x600C 0)
  return 0

end AsqPlatform

/-- The driver that notes nothing. -/
def driverPlatform : AsqPlatform DriverM where
  driver program := program
  noteLock _ := pure ()
  noteTail _ _ := pure ()

/-- `e1000_config_adminq_regs`. -/
def e1000ConfigAdminqRegs : DriverM Unit := driverPlatform.e1000ConfigAdminqRegs startXmit

/-- `e1000_asq_send_command` once the size of the buffer is known to be right. -/
def postCommand (call : AsqCall) : DriverM AsqResult := driverPlatform.postCommand startXmit call

/-- `e1000_asq_send_command`. -/
def e1000AsqSendCommand (call : AsqCall) : DriverM AsqResult :=
  driverPlatform.e1000AsqSendCommand startXmit none call

/-- `e1000_shutdown_adminq`. -/
def e1000ShutdownAdminq : DriverM Int := driverPlatform.e1000ShutdownAdminq startXmit

/-- Commands one after another. -/
def sendCommands : List AsqCall → DriverM Unit
  | [] => return
  | call :: calls => do
    let _ ← e1000AsqSendCommand startXmit call
    sendCommands calls

end Driver

end VirtualFirmware.Driver
