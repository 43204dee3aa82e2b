import VirtualFirmware.Driver.Versions

/-!
# The driver decodes what the firmware encodes

Besides the version numbers the driver takes over the status of a command. For an unknown
command the firmware and the device report the number of their own enumeration, which is
another one than the driver's.
-/

namespace VirtualFirmware.Driver

open Library Adminq Device

/-- `E1000_AQ_RC_ENOSYS` of the driver. -/
def driverENOSYS : UInt16 := 17

/-- The only answers of the firmware since then are this one. -/
def AnsweredOnly (m m' : Machine) (answer : AqDesc) : Prop :=
  ∀ desc, .answered desc ∈ m'.trace.drop m.trace.length → desc = answer

/-- If the opcode is unknown, the status is the driver's number for that once the firmware or the
device has completed the command. -/
def UnknownReported (startXmit : Machine → Machine) (aq : AdminqInfo) (m : Machine)
    (call : AsqCall) : Prop :=
  AqOpcode.ofCode (command aq call m).opcode = none → Interaction.Always
    (fun result => AnsweredOnly m result.2 (Firmware.respond (command aq call m)) →
      result.1.1.status = driverENOSYS)
    (e1000AsqSendCommand startXmit call aq m)

/-- The driver decodes what the firmware encodes. -/
structure Decodes (startXmit : Machine → Machine) (aq : AdminqInfo) (m : Machine)
    (numbers : Versions) (call : AsqCall) : Prop where
  versions : VersionsNamed startXmit aq m numbers
  status : UnknownReported startXmit aq m call

section Status

variable (startXmit : Machine → Machine) {aq : AdminqInfo} {m : Machine} {served : ℕ}
  {call : AsqCall}

/-- After the tail write the slot holds the device's completion or an answer of the firmware. -/
theorem InStep.slot_result (h : InStep aq m served) (call : AsqCall) (val : UInt32) :
    Interaction.Always (fun written =>
      descAt written.2.ram aq.slot = completed (command aq call m) ∨
        .answered (descAt written.2.ram aq.slot) ∈ written.2.trace.drop m.trace.length)
      (e1000SetAtqTail pfAtqt val (posted aq call m)) := by
  have hslot : (posted aq call m).headSlot = aq.slot := h.headSlot
  have hcommand : (posted aq call m).headDesc = command aq call m := by
    rw [Machine.headDesc, hslot]
    rfl
  have hafter := e1000SetAtqTail_slot val (posted aq call m)
  rw [hslot, hcommand] at hafter
  refine hafter.mono fun written hwritten => ?_
  obtain ⟨desc, hbytes, hresult⟩ := hwritten
  have hdesc : descAt written.2.ram aq.slot = desc := by rw [descAt, hbytes, AqDesc.ofBytes_bytes]
  rw [hdesc]
  refine hresult.imp_right fun hanswered => ?_
  exact List.drop_subset_drop_left _ (by simp [posted]) hanswered

/-- Either completion of an unknown command is done, with the number of the firmware's
enumeration. -/
theorem unknown_completion {desc : AqDesc} (h : AqOpcode.ofCode desc.opcode = none) :
    (completed desc).Done ∧ (completed desc).retval = rcENOSYS ∧
      Firmware.respond desc = completed desc := by
  refine ⟨AqDesc.done_setDone _, ?_, ?_⟩
  · simp only [completed, processed, h]
  · simp only [completed, processed, Firmware.respond, h]

/-- The status of an unknown command is the number of the firmware's enumeration. -/
theorem InStep.unknown_status (h : InStep aq m served) (hfits : ¬ call.buffSize > aq.asqBufSize)
    (hunknown : AqOpcode.ofCode (command aq call m).opcode = none) :
    Interaction.Always (fun result =>
      AnsweredOnly m result.2 (Firmware.respond (command aq call m)) →
        result.1.1.status = rcENOSYS)
      (e1000AsqSendCommand startXmit call aq m) := by
  obtain ⟨hdone, hretval, hrespond⟩ := unknown_completion hunknown
  rw [e1000AsqSendCommand_eq startXmit aq m hfits, Interaction.always_bind]
  refine (h.slot_result call _).mono fun written hslot honly => ?_
  have hdesc : descAt written.2.ram aq.slot = completed (command aq call m) :=
    hslot.elim id fun hanswered => (honly _ hanswered).trans hrespond
  rw [collected, hdesc, if_pos hdone]
  exact hretval

/-- A device without a connection completes the command without an answer. -/
theorem posted_refused (aq : AdminqInfo) (m : Machine) (call : AsqCall) (val : UInt32)
    (desc : AqDesc) :
    .answered desc ∉ ((e1000SetAtqTail pfAtqt val (posted aq call m)).resolve refused).2.trace.drop
      m.trace.length := by
  have hnone : .answered desc ∉ ((e1000SetAtqTail pfAtqt val (posted aq call m)).resolve
      refused).2.trace.drop (posted aq call m).trace.length := e1000SetAtqTail_refused _ _
  obtain ⟨result, answers, htrace, -⟩ :=
    ((e1000SetAtqTail_written val (posted aq call m)).resolve refused).trace
  rw [htrace, List.drop_left] at hnone
  rw [htrace, posted, List.append_assoc, List.drop_left]
  -- the command was posted in between, which is no answer
  exact fun hmem => hnone ((List.mem_cons.mp hmem).resolve_left AtqEvent.noConfusion)

/-- Without a connection the slot of a command holds the device's completion of it. -/
theorem InStep.slot_refused (h : InStep aq m served) (call : AsqCall) (val : UInt32) :
    descAt ((e1000SetAtqTail pfAtqt val (posted aq call m)).resolve refused).2.ram aq.slot =
      completed (command aq call m) :=
  ((h.slot_result call val).resolve refused).resolve_right (posted_refused aq m call val _)

/-- Without a connection a call returns without an answer from the firmware. -/
theorem answeredOnly_refused (hfits : ¬ call.buffSize > aq.asqBufSize) (m : Machine)
    (answer : AqDesc) :
    AnsweredOnly m ((e1000AsqSendCommand startXmit call aq m).resolve refused).2 answer := by
  intro desc hmem
  rw [e1000AsqSendCommand_eq startXmit aq m hfits, Interaction.resolve_bind] at hmem
  exact absurd hmem (posted_refused aq m call _ desc)

/-- The driver's number is never reported. -/
theorem InStep.unknownReported_iff (h : InStep aq m served)
    (hfits : ¬ call.buffSize > aq.asqBufSize) :
    UnknownReported startXmit aq m call ↔ AqOpcode.ofCode (command aq call m).opcode ≠ none := by
  constructor
  · intro hreported hunknown
    have honly := answeredOnly_refused startXmit hfits m (Firmware.respond (command aq call m))
    have hstatus := ((h.unknown_status startXmit hfits hunknown).resolve _ honly).symm.trans
      ((hreported hunknown).resolve _ honly)
    exact absurd hstatus (by decide)
  · intro hknown hunknown
    exact absurd hunknown hknown

end Status

/-- A driver in step with the device decodes what the firmware encodes exactly for equal minor and
major numbers and for known opcodes. -/
theorem decodes_iff (startXmit : Machine → Machine) {aq : AdminqInfo} {m : Machine} {served : ℕ}
    (h : InStep aq m served) (numbers : Versions) (call : AsqCall)
    (hfits : call.buffSize ≤ aq.asqBufSize) :
    Decodes startXmit aq m numbers call ↔
      (numbers.fwMaj = numbers.fwMin ∧ numbers.apiMaj = numbers.apiMin) ∧
        AqOpcode.ofCode (command aq call m).opcode ≠ none := by
  have hfits' : ¬ call.buffSize > aq.asqBufSize := by simpa using hfits
  rw [← h.versionsNamed_iff startXmit numbers, ← h.unknownReported_iff startXmit hfits']
  exact ⟨fun hdecodes => ⟨hdecodes.versions, hdecodes.status⟩, fun hboth => ⟨hboth.1, hboth.2⟩⟩

/-- A newly programmed ring of three slots is in step with the device. -/
theorem exists_inStep : ∃ m, InStep (e1000AllocAdminqRings 0x1000 threeSlots) m 0 :=
  have hentries : threeSlots.numAsqEntries ≠ 0 := by decide
  ⟨_, ((e1000ConfigAdminqRegs_inStep id default hentries 0x1000).resolve refused).2⟩

/-- Versions whose minor numbers equal their major ones are decoded. -/
theorem decodes_equal_numbers : ∃ m, InStep (e1000AllocAdminqRings 0x1000 threeSlots) m 0 ∧
    Decodes id (e1000AllocAdminqRings 0x1000 threeSlots) m ⟨7, 7, 2, 2⟩ getVersionCall := by
  obtain ⟨m, h⟩ := exists_inStep
  have hcommand : command (e1000AllocAdminqRings 0x1000 threeSlots) getVersionCall m =
      getVersionCall.marked :=
    command_direct _ _ rfl
  refine ⟨m, h, (decodes_iff id h ⟨7, 7, 2, 2⟩ getVersionCall (by decide)).mpr ⟨by decide, ?_⟩⟩
  rw [hcommand]
  decide

/-- A direct command with an opcode that nobody knows. -/
def unknownCall : AsqCall :=
  { getVersionCall with desc := { getVersionCall.desc with opcode := 4 } }

/-- The firmware's own numbers come out exchanged, and an unknown command is reported as one that
is not permitted. -/
theorem firmware_versions_exchanged : ∃ m, InStep (e1000AllocAdminqRings 0x1000 threeSlots) m 0 ∧
    (∃ result, Interaction.Returns (e1000AdminqCmd id 0 (fun _ => 0) ⟨0, 0, 0, 0⟩ 1
        (e1000AllocAdminqRings 0x1000 threeSlots) m) result ∧
      CompletesVersion (descAt result.2.ram (e1000AllocAdminqRings 0x1000 threeSlots).slot)
        firmwareVersions ∧
      result.1.1 = { fwMin := 0x34, fwMaj := 0x13, apiMin := 0xfa, apiMaj := 0xaf }) ∧
    ∃ result, Interaction.Returns (e1000AsqSendCommand id unknownCall
        (e1000AllocAdminqRings 0x1000 threeSlots) m) result ∧
      AnsweredOnly m result.2
        (Firmware.respond (command (e1000AllocAdminqRings 0x1000 threeSlots) unknownCall m)) ∧
      result.1.1.status = 1 ∧ driverENOSYS ≠ 1 := by
  obtain ⟨m, h⟩ := exists_inStep
  have hfits : ¬ unknownCall.buffSize > (e1000AllocAdminqRings 0x1000 threeSlots).asqBufSize := by
    decide
  have hcommand : command (e1000AllocAdminqRings 0x1000 threeSlots) unknownCall m =
      unknownCall.marked :=
    command_direct _ _ rfl
  have hunknown : AqOpcode.ofCode
      (command (e1000AllocAdminqRings 0x1000 threeSlots) unknownCall m).opcode = none := by
    rw [hcommand]
    decide
  have hrequest : command (e1000AllocAdminqRings 0x1000 threeSlots) (versionCall 0) m =
      (versionCall 0).marked :=
    command_direct _ _ rfl
  have hcompletes : CompletesVersion (descAt ((e1000AdminqCmd id 0 (fun _ => 0) ⟨0, 0, 0, 0⟩ 1
      (e1000AllocAdminqRings 0x1000 threeSlots) m).resolve refused).2.ram
        (e1000AllocAdminqRings 0x1000 threeSlots).slot) firmwareVersions := by
    rw [e1000AdminqCmd_eq, Interaction.resolve_bind, Interaction.resolve, h.slot_refused, hrequest]
    have hpacks := (getVersion_packs (versionCall 0).marked).2
    exact ⟨⟨hpacks.param0, hpacks.param1⟩, by decide, by decide⟩
  have honly := answeredOnly_refused id hfits m
    (Firmware.respond (command (e1000AllocAdminqRings 0x1000 threeSlots) unknownCall m))
  refine ⟨m, h, ⟨_, Interaction.returns_resolve refused _, hcompletes, ?_⟩,
    ⟨_, Interaction.returns_resolve refused _, honly, ?_, by decide⟩⟩
  · exact (e1000AdminqCmd_exchanged id _ m 0 _ _ firmwareVersions).resolve _ hcompletes
  · exact (h.unknown_status id hfits hunknown).resolve refused honly

end VirtualFirmware.Driver
