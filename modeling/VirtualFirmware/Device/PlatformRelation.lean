import VirtualFirmware.Device.Platform
import VirtualFirmware.Library.Relates

/-!
# The admin queue on two platforms

A relation between programs that holds between the operations of two platforms holds between the
functions of the admin queue on them.
-/

namespace VirtualFirmware.Device

open Library Messaging Adminq

variable {M N : Type → Type} [Monad M] [Monad N]

/-- The operations of the two platforms are related. -/
structure AqPlatform.Related (r : ProgramRelation M N) (p : AqPlatform M) (q : AqPlatform N) :
    Prop where
  dev : r.Holds p.dev q.dev
  setMacReg (index : ℕ) (value : UInt32) :
    r.Holds (p.setMacReg index value) (q.setMacReg index value)
  setFs (fs : Int) : r.Holds (p.setFs fs) (q.setFs fs)
  note (event : AtqEvent) : r.Holds (p.note event) (q.note event)
  fdbg {level : Int} (hlevel : dbgStatus ≤ level) : r.Holds (p.fdbg level) (q.fdbg level)
  qemuMalloc (size : ℕ) : r.Holds (p.qemuMalloc size) (q.qemuMalloc size)
  memoryRead (addr : UInt64) (count : ℕ) :
    r.Holds (p.memoryRead addr count) (q.memoryRead addr count)
  memoryWrite (addr : UInt64) (bytes : List UInt8) :
    r.Holds (p.memoryWrite addr bytes) (q.memoryWrite addr bytes)
  locate : r.Holds p.locate q.locate
  close (fs : Int) : r.Holds (p.close fs) (q.close fs)
  senddata (fs : Int) (buffer : Buffer) (length : UInt16) :
    r.Holds (p.senddata fs buffer length) (q.senddata fs buffer length)
  recvdata (fs : Int) (buffer : Buffer) (length : UInt16) :
    r.Holds (p.recvdata fs buffer length) (q.recvdata fs buffer length)

namespace AqPlatform.Related

variable {r : ProgramRelation M N} {p : AqPlatform M} {q : AqPlatform N} (h : p.Related r q)
  (desc : AqDesc)

include h

/-- The messages about a response are related. -/
theorem fdbgResponse (lines : ℕ) : r.Holds (p.fdbgResponse lines) (q.fdbgResponse lines) := by
  induction lines with
  | zero => exact r.pure _
  | succ lines ih => exact r.bind (h.fdbg (by decide)) fun _ => ih

/-- Dropping the connection is related. -/
theorem sendAqErr : r.Holds (p.sendAqErr desc) (q.sendAqErr desc) :=
  r.bind (h.fdbg (by decide)) fun _ => r.bind h.dev fun _ => r.bind (h.close _) fun _ =>
    r.bind (h.setFs _) fun _ => r.pure _

/-- Taking the response over is related. -/
theorem sendAqDone : r.Holds (p.sendAqDone desc) (q.sendAqDone desc) :=
  r.bind (h.fdbgResponse 12) fun _ => r.pure _

/-- Receiving the return buffer is related. -/
theorem recvAqBuffer (recvDesc : AqDesc) :
    r.Holds (p.recvAqBuffer desc recvDesc) (q.recvAqBuffer desc recvDesc) := by
  refine r.ite (r.bind (h.qemuMalloc _) fun buffer => ?_) (h.sendAqDone _)
  cases buffer with
  | none => exact h.sendAqErr desc
  | some buffer =>
    refine r.bind h.dev fun _ => r.bind (h.recvdata _ _ _) fun _ => r.ite (h.sendAqErr desc) ?_
    exact r.bind (h.memoryWrite _ _) fun _ => h.sendAqDone _

/-- Waiting for the response is related. -/
theorem recvAqResponse : r.Holds (p.recvAqResponse desc) (q.recvAqResponse desc) :=
  r.bind h.dev fun _ => r.bind (h.recvdata _ _ _) fun _ =>
    r.ite (h.sendAqErr desc) (h.recvAqBuffer desc _)

/-- Sending the command's buffer is related. -/
theorem sendAqBuffer : r.Holds (p.sendAqBuffer desc) (q.sendAqBuffer desc) := by
  refine r.ite (r.bind (h.qemuMalloc _) fun buffer => ?_) (h.recvAqResponse desc)
  cases buffer with
  | none => exact h.sendAqErr desc
  | some buffer =>
    refine r.bind (h.memoryRead _ _) fun _ => r.bind h.dev fun _ =>
      r.bind (h.senddata _ _ _) fun _ => ?_
    exact r.ite (h.sendAqErr desc) (h.recvAqResponse desc)

/-- Sending the command is related. -/
theorem sendAqDesc : r.Holds (p.sendAqDesc desc) (q.sendAqDesc desc) :=
  r.bind h.dev fun _ => r.bind (h.senddata _ _ _) fun _ =>
    r.ite (h.sendAqErr desc) (h.sendAqBuffer desc)

/-- The exchange is related. -/
theorem e1000SendAqCmd : r.Holds (p.e1000SendAqCmd desc) (q.e1000SendAqCmd desc) := by
  refine r.bind (h.fdbg (Int.le_refl _)) fun _ => r.bind h.dev fun _ => r.ite ?_ (h.sendAqDesc desc)
  refine r.bind h.locate fun _ => r.bind (h.setFs _) fun _ => r.bind h.dev fun _ => ?_
  exact r.ite (h.sendAqErr desc) (h.sendAqDesc desc)

/-- The echo is related. -/
theorem e1000AqEcho : r.Holds (p.e1000AqEcho desc) (q.e1000AqEcho desc) := by
  refine r.bind (h.fdbg (Int.le_refl _)) fun _ => r.ite ?_ (r.pure _)
  refine r.bind (h.qemuMalloc _) fun _ => r.bind (h.qemuMalloc _) fun buffer => ?_
  cases buffer with
  | none => exact r.pure _
  | some buffer =>
    exact r.bind (h.memoryRead _ _) fun _ => r.bind (h.memoryWrite _ _) fun _ => r.pure _

/-- The device's own part of a command is related. -/
theorem processAqCmd : r.Holds (p.processAqCmd desc) (q.processAqCmd desc) := by
  unfold AqPlatform.processAqCmd
  split
  · exact r.bind (h.fdbg (Int.le_refl _)) fun _ => r.pure _
  · exact h.e1000AqEcho desc
  · exact r.pure _

/-- Settling a command is related. -/
theorem settleAqCmd (rc : Int) : r.Holds (p.settleAqCmd rc desc) (q.settleAqCmd rc desc) :=
  r.ite (r.bind (h.processAqCmd _) fun _ => r.pure _) (r.bind (h.note _) fun _ => r.pure _)

/-- Carrying out a command is related. -/
theorem executeAqCmd : r.Holds (p.executeAqCmd desc) (q.executeAqCmd desc) :=
  r.bind (h.e1000SendAqCmd desc) fun _ => h.settleAqCmd _ _

/-- Moving the head is related. -/
theorem advanceHead : r.Holds p.advanceHead q.advanceHead := by
  refine r.bind h.dev fun _ => r.bind h.dev fun _ => r.bind (h.setMacReg _ _) fun _ => ?_
  exact r.bind h.dev fun _ => r.ite (h.setMacReg _ _) (r.pure _)

/-- Writing the descriptor back is related. -/
theorem finishAqCmd (base : UInt64) : r.Holds (p.finishAqCmd base desc) (q.finishAqCmd base desc) :=
  r.bind (h.memoryWrite _ _) fun _ => r.bind h.dev fun _ => r.bind (h.note _) fun _ => h.advanceHead

/-- A tail write is related. -/
theorem e1000SetAtqTail (index : ℕ) (val : UInt32) :
    r.Holds (p.e1000SetAtqTail index val) (q.e1000SetAtqTail index val) := by
  refine r.bind (h.setMacReg _ _) fun _ => r.bind h.dev fun _ => r.bind h.dev fun _ => ?_
  refine r.bind (h.memoryRead _ _) fun _ => r.bind h.dev fun _ => r.bind (h.note _) fun _ => ?_
  exact r.bind (h.fdbg (Int.le_refl _)) fun _ => r.bind (h.executeAqCmd _) fun _ =>
    h.finishAqCmd _ _

end AqPlatform.Related

end VirtualFirmware.Device
