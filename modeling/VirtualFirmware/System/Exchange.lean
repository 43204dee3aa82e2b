import VirtualFirmware.System.Link

/-!
# One exchange between the device and the firmware

Both programs follow scripts that are fixed by the command's descriptor, its data, and the
firmware's `echobuf`. With no data to carry, or with an echo to answer, the scripts
complete and the device returns the firmware's answer. Otherwise the device is left waiting
for a data frame that the firmware does not send.
-/

namespace VirtualFirmware.System

open Library Messaging Adminq Device Firmware

/-- What the firmware does with one command, given `echobuf` and the command's data. -/
def firmwareScript (echobuf : Bool) (desc : AqDesc) (dat : List UInt8) : List (Act (List UInt8)) :=
  if desc.datalen = 0 then [.recv desc.bytes, .send (respond desc).bytes]
  else if echoes echobuf desc then
    [.recv desc.bytes, .recv dat, .send (respond desc).bytes, .send dat]
  else [.recv desc.bytes, .recv dat, .send (respond desc).bytes]

/-- The thread's variables after one command; a command with data leaves `echobuf` clear. -/
def localsAfter (locals : Locals) (desc : AqDesc) (dat : List UInt8) : Locals :=
  if desc.datalen = 0 then
    { locals with desc := respond desc, echobuf := echoes locals.echobuf desc }
  else { desc := respond desc, buffer := locals.buffer.store dat, echobuf := false }

/-- What `recvdata` returns when it takes a payload that fits. -/
def received (data : Region) (payload : List UInt8) : Received :=
  { rc := 0, data := data.store payload, length := UInt16.ofNat payload.length }

section Calls

variable {A : Type} {script : List (Act (List UInt8))}

/-- A receive of the firmware that has room for what it finds. -/
theorem firmware_recvdata {data : Region} {length : UInt16} {payload : List UInt8}
    {next : Received → Thread A} {final : Thread A} (hroom : payload.length ≤ length.toNat)
    (h : Follows firmwarePort (next (received data payload)) script final) :
    Follows firmwarePort (Firmware.recvdata data length >>= next)
      (.recv payload :: script) final := by
  change Follows firmwarePort (.perform (MessageOp.recvdata data length) next) _ final
  exact .recv ⟨hroom, rfl⟩ h

/-- A program of the firmware that sends a payload follows a script that begins with it. -/
theorem firmware_senddata {data : Region} {length : UInt16} {payload : List UInt8}
    {next : Sent → Thread A} {final : Thread A} (hpos : 0 < length)
    (hload : data.load length.toNat = payload)
    (h : Follows firmwarePort (next { rc := length.toNat }) script final) :
    Follows firmwarePort (Firmware.senddata data length >>= next)
      (.send payload :: script) final := by
  change Follows firmwarePort (.perform (MessageOp.senddata data length) next) _ final
  exact .send ⟨hpos, hload.symm, rfl⟩ h

variable {fs : Int} {m : Machine} {final : Interaction DeviceOp DeviceReply (A × Machine)}

/-- A receive of the device that has room for what it finds. -/
theorem device_recvdata {data : Region} {length : UInt16} {payload : List UInt8}
    {next : Received → DeviceM A} (hroom : payload.length ≤ length.toNat)
    (h : Follows (devicePort fs) (next (received data payload) m) script final) :
    Follows (devicePort fs) ((Device.recvdata fs data length >>= next) m)
      (.recv payload :: script) final := by
  change Follows (devicePort fs)
    (.perform (DeviceOp.message fs (.recvdata data length)) fun reply => next reply m) _ final
  exact .recv ⟨rfl, hroom, rfl⟩ h

/-- A program of the device that sends a payload follows a script that begins with it. -/
theorem device_senddata {data : Region} {length : UInt16} {payload : List UInt8}
    {next : Sent → DeviceM A} (hpos : 0 < length) (hload : data.load length.toNat = payload)
    (h : Follows (devicePort fs) (next { rc := length.toNat } m) script final) :
    Follows (devicePort fs) ((Device.senddata fs data length >>= next) m)
      (.send payload :: script) final := by
  change Follows (devicePort fs)
    (.perform (DeviceOp.message fs (.senddata data length)) fun reply => next reply m) _ final
  exact .send ⟨rfl, hpos, hload.symm, rfl⟩ h

end Calls

/-- A round takes the whole descriptor and goes on with the command's buffer. -/
theorem t0EntryRound_follows (locals : Locals) (desc : AqDesc) {script : List (Act (List UInt8))}
    {final : Thread (Option Locals)}
    (h : Follows firmwarePort (recvBuffer { locals with desc := desc } (UInt16.ofNat AqDesc.size))
      script final) :
    Follows firmwarePort (t0EntryRound locals) (.recv desc.bytes :: script) final := by
  rw [t0EntryRound_eq]
  apply firmware_recvdata (by simp [AqDesc.size])
  simpa [received] using h

/-- The thread answers with the descriptor and goes on with the buffer. -/
theorem answer_follows (locals : Locals) (datLength : UInt16) {script : List (Act (List UInt8))}
    {final : Thread (Option Locals)}
    (h : Follows firmwarePort (sendBuffer { locals with
      desc := respond locals.desc, echobuf := echoes locals.echobuf locals.desc } datLength)
      script final) :
    Follows firmwarePort (answer locals (UInt16.ofNat AqDesc.size) datLength)
      (.send (respond locals.desc).bytes :: script) final := by
  rw [answer_eq, setDone_dispatch]
  apply firmware_senddata (by decide) (AqDesc.toRegion_load _)
  simpa [AqDesc.size] using h

/-- With `echobuf` set and data received, the thread sends the buffer back. -/
theorem sendBuffer_follows {locals : Locals} {datLength : UInt16} (hecho : locals.echobuf = true)
    (hpos : 0 < datLength) :
    Follows firmwarePort (sendBuffer locals datLength)
      [.send (locals.buffer.load datLength.toNat)]
      (.pure (some { locals with echobuf := false })) := by
  have hne : datLength ≠ 0 := UInt16.pos_iff_ne_zero.mp hpos
  simp only [sendBuffer_eq, hecho, Bool.true_and, bne_iff_ne, ne_eq, hne,
    not_false_eq_true, if_true]
  apply firmware_senddata hpos rfl
  rw [if_neg (by dsimp only; omega)]
  exact .done _

/-- Otherwise the thread sends no data frame. -/
theorem sendBuffer_silent {locals : Locals} {datLength : UInt16}
    (h : locals.echobuf = false ∨ datLength = 0) :
    sendBuffer locals datLength = .pure (some locals) := by
  rcases h with h | h <;> simp [sendBuffer_eq, h]

/-- One round of the thread follows the firmware's script. -/
theorem firmware_follows (locals : Locals) (desc : AqDesc) {dat : List UInt8}
    (hdat : dat.length = desc.datalen.toNat) :
    Follows firmwarePort (t0EntryRound locals) (firmwareScript locals.echobuf desc dat)
      (.pure (some (localsAfter locals desc dat))) := by
  by_cases hzero : desc.datalen = 0
  · simp only [firmwareScript, localsAfter, if_pos hzero]
    apply t0EntryRound_follows
    simp only [recvBuffer_eq, hzero, ne_eq, not_true_eq_false, if_false]
    apply answer_follows
    rw [sendBuffer_silent (.inr rfl)]
    exact .done _
  · have hlength : UInt16.ofNat dat.length = desc.datalen := by
      rw [hdat, UInt16.ofNat_toNat]
    have hpos : 0 < desc.datalen := UInt16.pos_iff_ne_zero.mpr hzero
    have hbuffer : (locals.buffer.store dat).load desc.datalen.toNat = dat := by
      rw [← hdat, Region.load_store]
    simp only [firmwareScript, localsAfter, if_neg hzero]
    cases hechoes : echoes locals.echobuf desc with
    | true =>
      apply t0EntryRound_follows
      simp only [recvBuffer_eq, ne_eq, hzero, not_false_eq_true, if_true]
      apply firmware_recvdata (by rw [hdat])
      apply answer_follows
      have hsend : Follows firmwarePort
          (sendBuffer ⟨respond desc, locals.buffer.store dat, true⟩ desc.datalen) _ _ :=
        sendBuffer_follows rfl hpos
      simpa only [received, hlength, hechoes, hbuffer] using hsend
    | false =>
      apply t0EntryRound_follows
      simp only [recvBuffer_eq, ne_eq, hzero, not_false_eq_true, if_true]
      apply firmware_recvdata (by rw [hdat])
      apply answer_follows
      rw [sendBuffer_silent (.inl hechoes)]
      simp only [received, hechoes]
      exact .done _

/-- What the device sends for a command with the given data. -/
def deviceRequest (desc : AqDesc) (dat : List UInt8) : List (Act (List UInt8)) :=
  if desc.datalen = 0 then [.send desc.bytes] else [.send desc.bytes, .send dat]

/-- The data of a command, read from guest RAM. -/
def commandData (desc : AqDesc) (m : Machine) : List UInt8 :=
  m.ram.read desc.bufferAddr desc.datalen.toNat

/-- The machine once the command is sent; only a command with data took a buffer. -/
def machineSent (desc : AqDesc) (m : Machine) : Machine :=
  if desc.datalen = 0 then m else m.allocated

/-- The data has the length the descriptor announces. -/
@[simp] theorem commandData_length (desc : AqDesc) (m : Machine) :
    (commandData desc m).length = desc.datalen.toNat := by
  simp [commandData]

section DeviceSide

variable {fs : Int} {m : Machine}

/-- The device sends the command and then waits for the response. -/
theorem sendAqDesc_follows (hfs : m.dev.fs = fs) (desc : AqDesc) :
    Follows (devicePort fs) (sendAqDesc desc m) (deviceRequest desc (commandData desc m))
      (recvAqResponse desc (machineSent desc m)) := by
  subst hfs
  by_cases hzero : desc.datalen = 0
  · simp only [deviceRequest, machineSent, if_pos hzero]
    apply device_senddata (by decide) (AqDesc.toRegion_load desc)
    rw [if_neg (by decide)]
    change Follows _ (sendAqBuffer desc m) _ _
    rw [sendAqBuffer_of_not_pos m (by simp [hzero])]
    exact .done _
  · have hpos : 0 < desc.datalen := UInt16.pos_iff_ne_zero.mpr hzero
    simp only [deviceRequest, machineSent, if_neg hzero]
    apply device_senddata (by decide) (AqDesc.toRegion_load desc)
    rw [if_neg (by decide)]
    change Follows _ (sendAqBuffer desc m) _ _
    rw [sendAqBuffer_of_pos m hpos]
    have hload : ((m.heap 0).store (commandData desc m)).load desc.datalen.toNat =
        commandData desc m := by
      rw [← commandData_length desc m, Region.load_store]
    apply device_senddata (m := m.allocated) hpos hload
    rw [if_neg (by dsimp only; omega)]
    exact .done _

/-- The device takes a response descriptor and looks at the data it announces. -/
theorem recvAqResponse_follows (hfs : m.dev.fs = fs) (desc recvDesc : AqDesc) :
    Follows (devicePort fs) (recvAqResponse desc m) [.recv recvDesc.bytes]
      (recvAqBuffer desc recvDesc m) := by
  subst hfs
  apply device_recvdata (by simp [AqDesc.size])
  rw [received, if_neg (by simp), AqDesc.ofRegion_store_bytes]
  exact .done _

/-- A data frame of the announced length is copied to the address the response names. -/
theorem recvAqBuffer_follows (hfs : m.dev.fs = fs) (desc : AqDesc) {recvDesc : AqDesc}
    (hpos : 0 < recvDesc.datalen) {dat : List UInt8} (hdat : dat.length = recvDesc.datalen.toNat) :
    Follows (devicePort fs) (recvAqBuffer desc recvDesc m) [.recv dat]
      (.pure ((0, recvDesc), { m.allocated with ram := m.ram.write recvDesc.bufferAddr dat })) := by
  subst hfs
  rw [recvAqBuffer_of_pos m hpos]
  apply device_recvdata (m := m.allocated) (by rw [hdat])
  rw [received, if_neg (by simp)]
  dsimp only
  rw [← hdat, Region.load_store]
  exact .done _

/-- With a connected socket the exchange starts with the descriptor. -/
theorem e1000SendAqCmd_connected (hconnected : m.dev.fs ≠ invalidSocket) (desc : AqDesc) :
    e1000SendAqCmd desc m = sendAqDesc desc m := by
  change (if m.dev.fs = invalidSocket then _ else sendAqDesc desc : DeviceM _) m = _
  rw [if_neg hconnected]

/-- The device is about to receive the data that the response announces. -/
theorem recvAqBuffer_waits (desc : AqDesc) {recvDesc : AqDesc} (hpos : 0 < recvDesc.datalen)
    (m : Machine) : ∃ data length next,
      recvAqBuffer desc recvDesc m = .perform (.message m.dev.fs (.recvdata data length)) next := by
  rw [recvAqBuffer_of_pos m hpos]
  exact ⟨_, _, _, rfl⟩

end DeviceSide

/-- The firmware will send all that the device waits for. -/
def Answered (echobuf : Bool) (desc : AqDesc) : Prop :=
  desc.datalen = 0 ∨ echoes echobuf desc = true

/-- What the device does with a command that is answered. -/
def deviceScript (desc : AqDesc) (dat : List UInt8) : List (Act (List UInt8)) :=
  if desc.datalen = 0 then [.send desc.bytes, .recv (respond desc).bytes]
  else [.send desc.bytes, .send dat, .recv (respond desc).bytes, .recv dat]

/-- The machine after an answered command: the data came back as it was. -/
def machineAfter (desc : AqDesc) (m : Machine) : Machine :=
  if desc.datalen = 0 then m else m.allocated.allocated

/-- A command that is answered ends with the firmware's descriptor and unchanged guest RAM. -/
theorem device_follows {fs : Int} {m : Machine} (hfs : m.dev.fs = fs)
    (hconnected : fs ≠ invalidSocket) (desc : AqDesc) :
    Follows (devicePort fs) (e1000SendAqCmd desc m) (deviceScript desc (commandData desc m))
      (.pure ((0, respond desc), machineAfter desc m)) := by
  rw [e1000SendAqCmd_connected (hfs ▸ hconnected)]
  have hrequest := sendAqDesc_follows hfs desc
  by_cases hzero : desc.datalen = 0
  · simp only [deviceRequest, machineSent, if_pos hzero] at hrequest
    have hresponse := recvAqResponse_follows hfs desc (respond desc)
    have hnodata : ¬ (respond desc).datalen > 0 := by simp [respond_datalen, hzero]
    rw [recvAqBuffer_of_not_pos m hnodata] at hresponse
    simp only [deviceScript, machineAfter, if_pos hzero]
    exact hrequest.trans hresponse
  · simp only [deviceRequest, machineSent, if_neg hzero] at hrequest
    have hresponse := recvAqResponse_follows (m := m.allocated) hfs desc (respond desc)
    have hpos : 0 < (respond desc).datalen := by
      rw [respond_datalen]
      exact UInt16.pos_iff_ne_zero.mpr hzero
    have hdata := recvAqBuffer_follows (m := m.allocated) hfs desc hpos
      (by rw [commandData_length desc m, respond_datalen])
    have hram : m.ram.write desc.bufferAddr (commandData desc m) = m.ram :=
      AddressSpace.write_read m.ram desc.bufferAddr desc.datalen.toNat
    rw [respond_bufferAddr, show m.allocated.ram = m.ram from rfl, hram] at hdata
    simp only [deviceScript, machineAfter, if_neg hzero]
    exact (hrequest.trans hresponse).trans hdata

/-- The scripts of an answered command complete. -/
theorem answered_completes {echobuf : Bool} {desc : AqDesc} (h : Answered echobuf desc)
    (dat : List UInt8) :
    Completes [] [] (deviceScript desc dat) (firmwareScript echobuf desc dat) := by
  by_cases hzero : desc.datalen = 0
  · simp only [deviceScript, firmwareScript, if_pos hzero]
    exact .leftSend (.rightRecv (.rightSend (.leftRecv .done)))
  · have hechoes := h.resolve_left hzero
    simp only [deviceScript, firmwareScript, if_neg hzero, if_pos hechoes]
    exact .leftSend (.leftSend (.rightRecv (.rightRecv (.rightSend (.rightSend
      (.leftRecv (.leftRecv .done)))))))

/-- Every script of the firmware ends with a send. -/
theorem firmwareScript_endsInSend (echobuf : Bool) (desc : AqDesc) (dat : List UInt8) :
    EndsInSend (firmwareScript echobuf desc dat) := by
  unfold firmwareScript
  split
  · exact ⟨_, rfl⟩
  · split <;> exact ⟨_, rfl⟩

/-- A command that is not answered leaves the device waiting for a data frame. -/
theorem device_follows_unanswered {fs : Int} {m : Machine} (hfs : m.dev.fs = fs)
    (hconnected : fs ≠ invalidSocket) {desc : AqDesc} (hdata : desc.datalen ≠ 0) :
    Follows (devicePort fs) (e1000SendAqCmd desc m)
      [.send desc.bytes, .send (commandData desc m), .recv (respond desc).bytes]
      (recvAqBuffer desc (respond desc) m.allocated) := by
  rw [e1000SendAqCmd_connected (hfs ▸ hconnected)]
  have hrequest := sendAqDesc_follows hfs desc
  simp only [deviceRequest, machineSent, if_neg hdata] at hrequest
  exact hrequest.trans (recvAqResponse_follows (m := m.allocated) hfs desc (respond desc))

/-- The scripts of an unanswered command complete without the data frame. -/
theorem unanswered_completes {echobuf : Bool} {desc : AqDesc} (h : ¬ Answered echobuf desc)
    (dat : List UInt8) :
    Completes [] [] [.send desc.bytes, .send dat, .recv (respond desc).bytes]
      (firmwareScript echobuf desc dat) := by
  obtain ⟨hzero, hechoes⟩ := not_or.mp h
  simp only [firmwareScript, if_neg hzero, if_neg hechoes]
  exact .leftSend (.leftSend (.rightRecv (.rightRecv (.rightSend (.leftRecv .done)))))

end VirtualFirmware.System
