import VirtualFirmware.Device.Machine
import VirtualFirmware.Messaging.Buffers

/-!
# The admin queue of the device

`e1000_set_atq_tail` takes the descriptor at the head of the ring, has the firmware carry
it out through `e1000_send_aq_cmd`, carries it out itself when that fails, writes the
descriptor back and moves the head. The exchange with the firmware is cut at the points
where it waits for the socket; each part is named after what it does next.

The code reaches the rest of the machine through a few operations: the device's registers and
socket, heap blocks, guest memory, the messaging calls and the log. It is stated once over these
operations and read with several meanings of them: guest memory that is all RAM, guest memory
that contains the device's own registers, calls that carry the sizes of their buffers, and a log
that is kept.
-/

namespace VirtualFirmware.Device

open Library Messaging Adminq

/-- `DBG_STATUS`. -/
def dbgStatus : Int := 1

/-- `DBG_ERROR`. -/
def dbgError : Int := 2

/-- `DBG_VERB`. -/
def dbgVerb : Int := 4

/-- `e1000_aq_get_version`: fill in the firmware and API version. -/
def e1000AqGetVersion (desc : AqDesc) : AqDesc :=
  let fwMajTemp : UInt32 := 0x34
  let fwMinTemp : UInt32 := 0x13
  let apiMajTemp : UInt32 := 0xfa
  let apiMinTemp : UInt32 := 0xaf
  { desc with
    param0 := fwMajTemp ||| fwMinTemp <<< 16
    param1 := apiMajTemp ||| apiMinTemp <<< 16 }

/-- `ENOSPC` of the host. -/
def hostENOSPC : UInt16 := 28

/-- What the admin queue uses of the machine; `note` keeps the trace of its accesses to the ring. -/
structure AqPlatform (M : Type → Type) where
  dev : M E1000State
  setMacReg : ℕ → UInt32 → M Unit
  setFs : Int → M Unit
  note : AtqEvent → M Unit
  fdbg : Int → M Unit
  qemuMalloc : ℕ → M (Option Buffer)
  memoryRead : UInt64 → ℕ → M (List UInt8)
  memoryWrite : UInt64 → List UInt8 → M Unit
  locate : M Int
  close : Int → M Unit
  senddata : Int → Buffer → UInt16 → M Sent
  recvdata : Int → Buffer → UInt16 → M Received

namespace AqPlatform

variable {M : Type → Type} [Monad M] (p : AqPlatform M)

/-- The messages about a response: a heading, nine of its fields and two sizes. -/
def fdbgResponse : ℕ → M Unit
  | 0 => return
  | lines + 1 => do
    p.fdbg dbgVerb
    fdbgResponse lines

/-- The label `err` of `e1000_send_aq_cmd`: drop the connection. -/
def sendAqErr (desc : AqDesc) : M (Int × AqDesc) := do
  p.fdbg dbgError
  p.close (← p.dev).fs
  p.setFs invalidSocket
  return (-1, desc)

/-- The end of `e1000_send_aq_cmd`: the response takes the command's place. -/
def sendAqDone (recvDesc : AqDesc) : M (Int × AqDesc) := do
  p.fdbgResponse 12
  return (0, recvDesc)

/-- Receive the return buffer the response announces, into a buffer of the command's size,
and copy it to the address the response names. -/
def recvAqBuffer (desc recvDesc : AqDesc) : M (Int × AqDesc) := do
  if recvDesc.datalen > 0 then
    match ← p.qemuMalloc desc.datalen.toNat with
    | none => p.sendAqErr desc
    | some buffer =>
      let received ← p.recvdata (← p.dev).fs buffer recvDesc.datalen
      if received.rc < 0 then
        p.sendAqErr desc
      else
        p.memoryWrite recvDesc.bufferAddr (received.data.load recvDesc.datalen.toNat)
        p.sendAqDone recvDesc
  else p.sendAqDone recvDesc

/-- Wait for the response descriptor; `recv_desc` was cleared before. -/
def recvAqResponse (desc : AqDesc) : M (Int × AqDesc) := do
  let received ← p.recvdata (← p.dev).fs ⟨fun _ => 0, AqDesc.size⟩ (UInt16.ofNat AqDesc.size)
  if received.rc < 0 then
    p.sendAqErr desc
  else p.recvAqBuffer desc (AqDesc.ofRegion received.data)

/-- Send the command's buffer, if it has one. -/
def sendAqBuffer (desc : AqDesc) : M (Int × AqDesc) := do
  if desc.datalen > 0 then
    match ← p.qemuMalloc desc.datalen.toNat with
    | none => p.sendAqErr desc
    | some buffer =>
      let bytes ← p.memoryRead desc.bufferAddr desc.datalen.toNat
      let sent ← p.senddata (← p.dev).fs (buffer.store bytes) desc.datalen
      if sent.rc < 0 then
        p.sendAqErr desc
      else p.recvAqResponse desc
  else p.recvAqResponse desc

/-- Send the command descriptor. -/
def sendAqDesc (desc : AqDesc) : M (Int × AqDesc) := do
  let sent ← p.senddata (← p.dev).fs ⟨desc.toRegion, AqDesc.size⟩ (UInt16.ofNat AqDesc.size)
  if sent.rc < 0 then
    p.sendAqErr desc
  else p.sendAqBuffer desc

/-- `e1000_send_aq_cmd`: the result and the descriptor after the call. -/
def e1000SendAqCmd (desc : AqDesc) : M (Int × AqDesc) := do
  p.fdbg dbgStatus
  if (← p.dev).fs = invalidSocket then
    p.setFs (← p.locate)
    if (← p.dev).fs = invalidSocket then
      p.sendAqErr desc
    else p.sendAqDesc desc
  else p.sendAqDesc desc

/-- `e1000_aq_echo`: read the command's buffer and write it back. -/
def e1000AqEcho (desc : AqDesc) : M AqDesc := do
  p.fdbg dbgStatus
  if desc.datalen ≠ 0 then
    let _ ← p.qemuMalloc desc.datalen.toNat
    match ← p.qemuMalloc desc.datalen.toNat with
    | none => return { desc with flags := desc.flags ||| flagERR, retval := hostENOSPC }
    | some myBuf =>
      let myBuf := myBuf.store (← p.memoryRead desc.bufferAddr desc.datalen.toNat)
      p.memoryWrite desc.bufferAddr (myBuf.contents.load desc.datalen.toNat)
      return desc
  else return desc

/-- The switch with which the device carries out a command itself. -/
def processAqCmd (desc : AqDesc) : M AqDesc := do
  match AqOpcode.ofCode desc.opcode with
  | some .getVersion =>
    -- the message is the first statement of `e1000_aq_get_version`
    p.fdbg dbgStatus
    return e1000AqGetVersion desc
  | some .echo => p.e1000AqEcho desc
  | _ => return { desc with retval := rcENOSYS }

/-- Carry out the command here if the exchange with the firmware failed. -/
def settleAqCmd (rc : Int) (desc : AqDesc) : M AqDesc := do
  if rc < 0 then
    let desc ← p.processAqCmd desc
    return { desc with flags := desc.flags ||| flagDD }
  else
    p.note (.answered desc)
    return desc

/-- Have the firmware carry out the command, or carry it out here. -/
def executeAqCmd (desc : AqDesc) : M AqDesc := do
  let (rc, desc) ← p.e1000SendAqCmd desc
  p.settleAqCmd rc desc

/-- Move the head to the next slot. -/
def advanceHead : M Unit := do
  let ringLen := (← p.dev).ring.ringLen
  p.setMacReg pfAtqh ((← p.dev).macReg pfAtqh + 1)
  if (← p.dev).macReg pfAtqh ≥ ringLen.toUInt32 then
    p.setMacReg pfAtqh 0

/-- Write the descriptor back to its slot and move on. -/
def finishAqCmd (base : UInt64) (desc : AqDesc) : M Unit := do
  p.memoryWrite base desc.bytes
  p.note (.writtenBack (← p.dev).ring base desc)
  p.advanceHead

/-- `e1000_set_atq_tail`. -/
def e1000SetAtqTail (index : ℕ) (val : UInt32) : M Unit := do
  p.setMacReg index val
  let base := (← p.dev).ring.slot ((← p.dev).macReg pfAtqh)
  let desc := AqDesc.ofBytes (← p.memoryRead base AqDesc.size)
  p.note (.fetched (← p.dev).ring base desc)
  p.fdbg dbgStatus
  let desc ← p.executeAqCmd desc
  p.finishAqCmd base desc

end AqPlatform

end VirtualFirmware.Device
