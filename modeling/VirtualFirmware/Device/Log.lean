import VirtualFirmware.Device.AtqTail

/-!
# The log of the devices

All devices of a process write to one log, `e1000_log`. The first device opens it, any device
that is removed closes it, and the pointer is never reset. What is written depends on the
debug level, which the first device reads from the options. The code of the admin queue is
read here with the log that it writes to.
-/

namespace VirtualFirmware.Device

open Library Messaging Adminq

/-- What `e1000_log` points to. -/
inductive LogFile where
  | null
  | opened
  | closed
deriving DecidableEq, Repr

/-- A use of `e1000_log`, with what it pointed to at that moment. -/
inductive LogUse where
  | written (file : LogFile)
  | closed (file : LogFile)
deriving DecidableEq, Repr

/-- What the log pointed to when it was used. -/
def LogUse.file : LogUse → LogFile
  | .written file => file
  | .closed file => file

/-- The log, `OPT.dbglvl`, and the uses of the log so far. -/
structure LogState where
  file : LogFile
  dbglvl : Int
  uses : List LogUse
deriving DecidableEq, Repr

/-- Device code that writes to the log. -/
abbrev LogM := StateT LogState DeviceM

/-- The log after a message of this level. -/
def LogState.wrote (log : LogState) (level : Int) : LogState :=
  if log.dbglvl ≥ level then { log with uses := log.uses ++ [.written log.file] } else log

namespace LogState

variable {log : LogState} {level : Int}

/-- A message of a level that is asked for is written. -/
theorem wrote_of_le (h : level ≤ log.dbglvl) :
    log.wrote level = { log with uses := log.uses ++ [.written log.file] } := if_pos h

/-- A message above the level of the log is not written. -/
theorem wrote_of_not_le (h : ¬ level ≤ log.dbglvl) : log.wrote level = log := if_neg h

end LogState

namespace Logged

/-- `fdbg` to `e1000_log`. -/
def fdbg (level : Int) : LogM Unit := modify fun log => log.wrote level

/-- The device's own code, which leaves the log alone. -/
def lift {A : Type} (x : DeviceM A) : LogM A := liftM x

/-- The machine with guest memory that is all RAM, and the log. -/
def platform : AqPlatform LogM where
  dev := lift ramPlatform.dev
  setMacReg index value := lift (ramPlatform.setMacReg index value)
  setFs fs := lift (ramPlatform.setFs fs)
  note event := lift (ramPlatform.note event)
  fdbg := fdbg
  qemuMalloc size := lift (ramPlatform.qemuMalloc size)
  memoryRead addr count := lift (ramPlatform.memoryRead addr count)
  memoryWrite addr bytes := lift (ramPlatform.memoryWrite addr bytes)
  locate := lift ramPlatform.locate
  close fs := lift (ramPlatform.close fs)
  senddata fs buffer length := lift (ramPlatform.senddata fs buffer length)
  recvdata fs buffer length := lift (ramPlatform.recvdata fs buffer length)

/-- `e1000_set_atq_tail` with its messages. -/
def e1000SetAtqTail : ℕ → UInt32 → LogM Unit := platform.e1000SetAtqTail

end Logged

end VirtualFirmware.Device
