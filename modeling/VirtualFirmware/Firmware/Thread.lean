import VirtualFirmware.Adminq.Descriptor
import VirtualFirmware.Library.Interaction
import VirtualFirmware.Messaging.Buffers
import VirtualFirmware.Messaging.Channel

/-!
# The firmware's communication thread

`t_0_entry` receives a command descriptor and, when its `datalen` is nonzero, the command's
buffer. It answers with the descriptor and, if an echo set `echobuf` and this command
carried data, with the buffer. The thread's local variables live across rounds of its loop:
`desc` and `buffer` start with whatever the stack held, `echobuf` starts at zero. A round is written
once over the two messaging calls, which are given a buffer with its size.
-/

namespace VirtualFirmware.Firmware

open Library Messaging Adminq

/-- `FW_DAT_SIZE`, the size of the thread's data buffer. -/
def datSize : ℕ := 4096

/-- The local variables of `t_0_entry` that survive a round of its loop. -/
structure Locals where
  desc : AqDesc
  buffer : Region
  echobuf : Bool

/-- A program of the firmware: it talks over its one socket. -/
abbrev Thread := Interaction MessageOp MessageReply

/-- Send `length` bytes and return the call's result. -/
def senddata (data : Region) (length : UInt16) : Thread Sent :=
  Interaction.ask (MessageOp.senddata data length)

/-- Receive into a region with room for `length` bytes. -/
def recvdata (data : Region) (length : UInt16) : Thread Received :=
  Interaction.ask (MessageOp.recvdata data length)

/-- `e1000_aq_get_version`: fill in the firmware and API version. -/
def e1000AqGetVersion (desc : AqDesc) : AqDesc :=
  let fwMajTemp : UInt32 := 0x34
  let fwMinTemp : UInt32 := 0x13
  let apiMajTemp : UInt32 := 0xfa
  let apiMinTemp : UInt32 := 0xaf
  { desc with
    param0 := fwMajTemp ||| fwMinTemp <<< 16
    param1 := apiMajTemp ||| apiMinTemp <<< 16 }

/-- `e1000_aq_driver_heartbeat` does nothing yet. -/
def e1000AqDriverHeartbeat (desc : AqDesc) : AqDesc := desc

/-- `e1000_aq_echo` leaves the descriptor and the buffer as they are. -/
def e1000AqEcho (desc : AqDesc) (_inBuff : Region) : AqDesc := desc

/-- The switch on the command's opcode. -/
def dispatch (locals : Locals) : Locals :=
  match AqOpcode.ofCode locals.desc.opcode with
  | some .getVersion => { locals with desc := e1000AqGetVersion locals.desc }
  | some .driverHeartbeat => { locals with desc := e1000AqDriverHeartbeat locals.desc }
  | some .echo => { locals with desc := e1000AqEcho locals.desc locals.buffer, echobuf := true }
  | none => { locals with desc := { locals.desc with retval := rcENOSYS } }

/-- Set the done flag of the descriptor. -/
def setDone (locals : Locals) : Locals :=
  { locals with desc := { locals.desc with flags := locals.desc.flags ||| flagDD } }

/-- What a round uses of the socket. -/
structure ThreadPlatform (M : Type → Type) where
  senddata : Buffer → UInt16 → M Sent
  recvdata : Buffer → UInt16 → M Received

/-- The memory of the descriptor variable. -/
def Locals.descBuffer (locals : Locals) : Buffer := ⟨locals.desc.toRegion, AqDesc.size⟩

/-- The thread's data buffer. -/
def Locals.dataBuffer (locals : Locals) : Buffer := ⟨locals.buffer, datSize⟩

namespace ThreadPlatform

variable {M : Type → Type} [Monad M] (p : ThreadPlatform M)

/-- Send the buffer back when an echo asked for it; `none` when the loop is left. -/
def sendBuffer (locals : Locals) (datLength : UInt16) : M (Option Locals) := do
  if locals.echobuf && datLength != 0 then
    let sent ← p.senddata locals.dataBuffer datLength
    if sent.rc = -1 then
      return none
    return some { locals with echobuf := false }
  return some locals

/-- Carry out the command and send the answer. -/
def answer (locals : Locals) (msgLength datLength : UInt16) : M (Option Locals) := do
  let locals := setDone (dispatch locals)
  let sent ← p.senddata locals.descBuffer msgLength
  if sent.rc = -1 then
    return none
  p.sendBuffer locals datLength

/-- Receive the command's buffer, if it has one; a failure is only reported. -/
def recvBuffer (locals : Locals) (msgLength : UInt16) : M (Option Locals) := do
  let datLength := locals.desc.datalen
  if datLength ≠ 0 then
    let received ← p.recvdata locals.dataBuffer datLength
    p.answer { locals with buffer := received.data } msgLength received.length
  else p.answer locals msgLength datLength

/-- One round of the loop of `t_0_entry`. -/
def t0EntryRound (locals : Locals) : M (Option Locals) := do
  let received ← p.recvdata locals.descBuffer (UInt16.ofNat AqDesc.size)
  let locals := { locals with desc := AqDesc.ofRegion received.data }
  if received.rc = -1 then
    return some locals
  p.recvBuffer locals received.length

end ThreadPlatform

/-- The calls without the sizes of their buffers. -/
def threadPlatform : ThreadPlatform Thread where
  senddata buffer length := senddata buffer.contents length
  recvdata buffer length := recvdata buffer.contents length

/-- Send the buffer back when an echo asked for it; `none` when the loop is left. -/
def sendBuffer (locals : Locals) (datLength : UInt16) : Thread (Option Locals) :=
  threadPlatform.sendBuffer locals datLength

/-- Carry out the command and send the answer. -/
def answer (locals : Locals) (msgLength datLength : UInt16) : Thread (Option Locals) :=
  threadPlatform.answer locals msgLength datLength

/-- Receive the command's buffer, if it has one; a failure is only reported. -/
def recvBuffer (locals : Locals) (msgLength : UInt16) : Thread (Option Locals) :=
  threadPlatform.recvBuffer locals msgLength

/-- One round of the loop of `t_0_entry`. -/
def t0EntryRound (locals : Locals) : Thread (Option Locals) := threadPlatform.t0EntryRound locals

section Equations

variable (locals : Locals) (msgLength datLength : UInt16)

/-- The buffer is sent from the thread's memory. -/
theorem sendBuffer_eq : sendBuffer locals datLength =
    if locals.echobuf && datLength != 0 then
      senddata locals.buffer datLength >>= fun sent =>
        if sent.rc = -1 then pure none else pure (some { locals with echobuf := false })
    else pure (some locals) := rfl

/-- The answer is sent, then the buffer. -/
theorem answer_eq : answer locals msgLength datLength =
    senddata (setDone (dispatch locals)).desc.toRegion msgLength >>= fun sent =>
      if sent.rc = -1 then pure none else sendBuffer (setDone (dispatch locals)) datLength := rfl

/-- The command's buffer is received into the thread's memory. -/
theorem recvBuffer_eq : recvBuffer locals msgLength =
    if locals.desc.datalen ≠ 0 then
      recvdata locals.buffer locals.desc.datalen >>= fun received =>
        answer { locals with buffer := received.data } msgLength received.length
    else answer locals msgLength locals.desc.datalen := rfl

/-- The command is received over the last one. -/
theorem t0EntryRound_eq : t0EntryRound locals =
    recvdata locals.desc.toRegion (UInt16.ofNat AqDesc.size) >>= fun received =>
      if received.rc = -1 then pure (some { locals with desc := AqDesc.ofRegion received.data })
      else recvBuffer { locals with desc := AqDesc.ofRegion received.data } received.length := rfl

end Equations

/-- The descriptor the firmware answers a command with. -/
def respond (desc : AqDesc) : AqDesc :=
  match AqOpcode.ofCode desc.opcode with
  | some .getVersion => { e1000AqGetVersion desc with flags := desc.flags ||| flagDD }
  | some .driverHeartbeat => { desc with flags := desc.flags ||| flagDD }
  | some .echo => { desc with flags := desc.flags ||| flagDD }
  | none => { desc with flags := desc.flags ||| flagDD, retval := rcENOSYS }

/-- The value of `echobuf` once a command was carried out. -/
def echoes (echobuf : Bool) (desc : AqDesc) : Bool :=
  echobuf || AqOpcode.ofCode desc.opcode == some .echo

/-- Carrying out a command and setting the done flag gives the answer; an echo sets
`echobuf` and nothing clears it here. -/
theorem setDone_dispatch (locals : Locals) :
    setDone (dispatch locals) =
      { locals with
        desc := respond locals.desc
        echobuf := echoes locals.echobuf locals.desc } := by
  unfold setDone dispatch respond echoes
  cases AqOpcode.ofCode locals.desc.opcode with
  | none => simp
  | some opcode => cases opcode <;> simp [e1000AqGetVersion, e1000AqDriverHeartbeat, e1000AqEcho]

/-- Every answer is done. -/
theorem respond_done (desc : AqDesc) : (respond desc).Done := by
  have hflags : (respond desc).flags = desc.flags ||| flagDD := by
    unfold respond
    cases AqOpcode.ofCode desc.opcode with
    | none => rfl
    | some opcode => cases opcode <;> rfl
  rw [AqDesc.Done, hflags]
  exact AqDesc.done_setDone desc

/-- The answer announces as much data as the command did. -/
@[simp] theorem respond_datalen (desc : AqDesc) : (respond desc).datalen = desc.datalen := by
  unfold respond
  cases AqOpcode.ofCode desc.opcode with
  | none => rfl
  | some opcode => cases opcode <;> rfl

/-- The answer names the command's own buffer. -/
@[simp] theorem respond_bufferAddr (desc : AqDesc) :
    (respond desc).bufferAddr = desc.bufferAddr := by
  unfold respond
  cases AqOpcode.ofCode desc.opcode with
  | none => rfl
  | some opcode => cases opcode <;> rfl

end VirtualFirmware.Firmware
