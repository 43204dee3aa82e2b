import VirtualFirmware.Device.Platform

/-!
# The admin queue on guest memory that is all RAM

The code of the admin queue with the operations of `DeviceM`. Its log is not kept.
-/

namespace VirtualFirmware.Device

open Library Messaging Adminq

/-- The machine with guest memory that is all RAM. -/
def ramPlatform : AqPlatform DeviceM where
  dev := return (← get).dev
  setMacReg := setMacReg
  setFs := setFs
  note := note
  fdbg _ := pure ()
  qemuMalloc size := return (← qemuMalloc size).map (Buffer.mk · (mallocSize size))
  memoryRead := cpuPhysicalMemoryRead
  memoryWrite := cpuPhysicalMemoryWrite
  locate := call .locate
  close fs := call (.close fs)
  senddata fs buffer length := senddata fs buffer.contents length
  recvdata fs buffer length := recvdata fs buffer.contents length

/-- The label `err` of `e1000_send_aq_cmd`. -/
def sendAqErr : AqDesc → DeviceM (Int × AqDesc) := ramPlatform.sendAqErr

/-- Receive the return buffer the response announces. -/
def recvAqBuffer : AqDesc → AqDesc → DeviceM (Int × AqDesc) := ramPlatform.recvAqBuffer

/-- Wait for the response descriptor. -/
def recvAqResponse : AqDesc → DeviceM (Int × AqDesc) := ramPlatform.recvAqResponse

/-- Send the command's buffer, if it has one. -/
def sendAqBuffer : AqDesc → DeviceM (Int × AqDesc) := ramPlatform.sendAqBuffer

/-- Send the command descriptor. -/
def sendAqDesc : AqDesc → DeviceM (Int × AqDesc) := ramPlatform.sendAqDesc

/-- `e1000_send_aq_cmd`. -/
def e1000SendAqCmd : AqDesc → DeviceM (Int × AqDesc) := ramPlatform.e1000SendAqCmd

/-- `e1000_aq_echo`. -/
def e1000AqEcho : AqDesc → DeviceM AqDesc := ramPlatform.e1000AqEcho

/-- The switch with which the device carries out a command itself. -/
def processAqCmd : AqDesc → DeviceM AqDesc := ramPlatform.processAqCmd

/-- Carry out the command here if the exchange with the firmware failed. -/
def settleAqCmd : Int → AqDesc → DeviceM AqDesc := ramPlatform.settleAqCmd

/-- Have the firmware carry out the command, or carry it out here. -/
def executeAqCmd : AqDesc → DeviceM AqDesc := ramPlatform.executeAqCmd

/-- Move the head to the next slot. -/
def advanceHead : DeviceM Unit := ramPlatform.advanceHead

/-- Write the descriptor back to its slot and move on. -/
def finishAqCmd : UInt64 → AqDesc → DeviceM Unit := ramPlatform.finishAqCmd

/-- `e1000_set_atq_tail`. -/
def e1000SetAtqTail : ℕ → UInt32 → DeviceM Unit := ramPlatform.e1000SetAtqTail

section Buffers

variable {desc recvDesc : AqDesc} (m : Machine)

/-- A response without data ends the exchange. -/
theorem recvAqBuffer_of_not_pos (h : ¬ recvDesc.datalen > 0) :
    recvAqBuffer desc recvDesc m = .pure ((0, recvDesc), m) := by
  rw [recvAqBuffer, AqPlatform.recvAqBuffer, if_neg h]
  rfl

/-- A response with data is followed by a buffer, which is copied to the guest. -/
theorem recvAqBuffer_of_pos (h : recvDesc.datalen > 0) :
    recvAqBuffer desc recvDesc m =
      (recvdata m.dev.fs (m.heap 0) recvDesc.datalen >>= fun received =>
        if received.rc < 0 then sendAqErr desc
        else cpuPhysicalMemoryWrite recvDesc.bufferAddr
            (received.data.load recvDesc.datalen.toNat) >>=
          fun _ => pure (0, recvDesc)) m.allocated := by
  rw [recvAqBuffer, AqPlatform.recvAqBuffer, if_pos h]
  rfl

/-- A command without data goes on to the response. -/
theorem sendAqBuffer_of_not_pos (h : ¬ desc.datalen > 0) :
    sendAqBuffer desc m = recvAqResponse desc m := by
  rw [sendAqBuffer, AqPlatform.sendAqBuffer, if_neg h]
  rfl

/-- The data of a command is read from the guest and sent. -/
theorem sendAqBuffer_of_pos (h : desc.datalen > 0) :
    sendAqBuffer desc m =
      (senddata m.dev.fs ((m.heap 0).store (m.ram.read desc.bufferAddr desc.datalen.toNat))
          desc.datalen >>= fun sent =>
        if sent.rc < 0 then sendAqErr desc else recvAqResponse desc) m.allocated := by
  rw [sendAqBuffer, AqPlatform.sendAqBuffer, if_pos h]
  rfl

end Buffers

end VirtualFirmware.Device
