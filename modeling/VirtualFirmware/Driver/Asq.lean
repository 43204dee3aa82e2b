import VirtualFirmware.Driver.AdminqCmd

/-!
# The send queue with its lock and its cleaning

The same code, run with `next_to_clean` and with the cleaning of the ring before a command, which a
later version compiles out. Besides `next_to_clean` the state keeps what happened to the lock that
protects the ring, what each cleaning did and the machine around each tail write; no code reads
these.
-/

namespace VirtualFirmware.Driver

open Library Adminq Device

/-- One call of `e1000_clean_asq`: the indices of the slots it looked at, the two indices of the
ring when it returns, and what it returns. -/
structure Cleaning where
  inspected : List UInt16
  nextToClean : UInt16
  nextToUse : UInt16
  unused : UInt16
deriving DecidableEq, Repr

/-- The rest of the driver's state. -/
structure AsqState where
  nextToClean : UInt16
  versions : Versions
  lockEvents : List (LockEvent Shared)
  cleanings : List Cleaning
  tailWrites : List (Machine × Machine)

/-- Driver code that uses the lock. -/
abbrev AsqM := StateT AsqState DriverM

/-- `ENOMEM` of the guest. -/
def guestENOMEM : Int := 12

namespace Asq

/-- Note what happens to the lock or to what it protects. -/
def noteLock (event : LockEvent Shared) : AsqM Unit :=
  modify fun s => { s with lockEvents := s.lockEvents ++ [event] }

/-- `spin_lock_init` of `asq_spinlock`. -/
def spinLockInit : AsqM Unit := noteLock .init

/-- The loop of `e1000_clean_asq`: the slots it looks at and the index at which it ends. Every slot
it passes is cleared, so it passes each of the 65536 indices at most once. -/
def cleanSlots : ℕ → UInt16 → AsqM (List UInt16 × UInt16)
  | 0, i => return ([], i)
  | fuel + 1, i => do
    let desc := adminqDesc (← (get : DriverM AdminqInfo)) i
    if ← slotDone desc then
      noteLock (.modify .ring)
      memcpyTo desc (List.replicate AqDesc.size 0)
      let (inspected, last) ← cleanSlots fuel (i + 1)
      return (i :: inspected, last)
    else return ([i], i)

/-- `E1000_DESC_UNUSED`. -/
def descUnused (count nextToClean nextToUse : UInt16) : UInt16 :=
  (if nextToClean > nextToUse then 0 else count) + nextToClean - nextToUse - 1

/-- `e1000_clean_asq`. -/
def e1000CleanAsq : AsqM UInt16 := do
  let (inspected, i) ← cleanSlots 65537 (← get).nextToClean
  let aq ← (get : DriverM AdminqInfo)
  let unused := descUnused aq.count i aq.nextToUse
  modify fun s => { s with
    nextToClean := i
    cleanings := s.cleanings ++ [⟨inspected, i, aq.nextToUse, unused⟩] }
  return unused

/-- The driver that notes what happens. -/
def platform : AsqPlatform AsqM where
  driver program := program
  noteLock := noteLock
  noteTail before after :=
    modify fun s => { s with tailWrites := s.tailWrites ++ [(before, after)] }

section Driver

variable (startXmit : Machine → Machine)

/-- `E1000_WRITE_REG` to the tail. -/
def writeTail (val : UInt32) : AsqM Unit := platform.writeTail startXmit val

/-- `e1000_asq_send_command` once there is room for the command. -/
def postCommand (call : AsqCall) : AsqM AsqResult := platform.postCommand startXmit call

/-- `e1000_config_adminq_regs`. -/
def e1000ConfigAdminqRegs : AsqM Unit := platform.e1000ConfigAdminqRegs startXmit

variable (cleaning : Bool)

/-- `e1000_asq_send_command`, with or without the cleaning. -/
def e1000AsqSendCommand (call : AsqCall) : AsqM AsqResult :=
  platform.e1000AsqSendCommand startXmit (if cleaning then some e1000CleanAsq else none) call

/-- What the caller of `e1000_init_adminq` has set, the memory that the allocations return, and the
`cookie` of the first command. -/
structure Setup where
  numAsqEntries : UInt16
  asqBufSize : UInt16
  ring : Option UInt64
  bufs : ℕ → UInt64
  cookie : UInt64

/-- `e1000_alloc_adminq_rings`. -/
def e1000AllocAdminqRings (ring : Option UInt64) : AsqM Int := do
  noteLock (.modify .ring)
  match ring with
  | none => return -guestENOMEM
  | some dma =>
    if dma = 0 then
      return -guestENOMEM
    else
      noteLock (.modify .nextToUse)
      (modify (Driver.e1000AllocAdminqRings dma) : DriverM Unit)
      return 0

/-- `e1000_init_adminq`. -/
def e1000InitAdminq (setup : Setup) : AsqM Int := do
  (modify fun aq => { aq with
    numAsqEntries := setup.numAsqEntries
    asqBufSize := setup.asqBufSize } : DriverM Unit)
  if setup.numAsqEntries = 0 ∨ setup.asqBufSize = 0 then
    return -1
  else
    spinLockInit
    let retCode ← e1000AllocAdminqRings setup.ring
    if retCode ≠ 0 then
      return retCode
    else
      (modify fun aq => { aq with asqBi := setup.bufs } : DriverM Unit)
      e1000ConfigAdminqRegs startXmit
      let result ← e1000AsqSendCommand startXmit cleaning (versionCall setup.cookie)
      modify fun s =>
        { s with versions := s.versions.storeAnswer result .fwMaj .fwMin .apiMaj .apiMin }
      return 0

/-- `e1000_shutdown_adminq`. -/
def e1000ShutdownAdminq : AsqM Int := platform.e1000ShutdownAdminq startXmit

end Driver

end Asq

end VirtualFirmware.Driver
