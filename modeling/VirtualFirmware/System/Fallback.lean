import VirtualFirmware.Device.RingSemantics
import VirtualFirmware.System.TailExchange

/-!
# The firmware and the device's own switch

When the exchange with the firmware fails, the device carries out the command with a switch
of its own. The two agree on guest RAM for every descriptor that a fresh firmware answers,
with one exception: the device's switch has no case for the driver's heartbeat and reports
it as an unknown command.
-/

namespace VirtualFirmware.System

open Library Messaging Adminq Device Firmware

/-- A tail write over a fresh connection to the firmware returns with this machine. -/
def AnsweredByFirmware (m : Machine) (val : UInt32) (m' : Machine) : Prop :=
  m.dev.fs ≠ invalidSocket ∧ ∃ locals right link, locals.echobuf = false ∧
    Relation.ReflTransGen (LinkStep m.dev.fs)
      ⟨e1000SetAtqTail pfAtqt val m, t0EntryRound locals, Link.fresh⟩ ⟨.pure ((), m'), right, link⟩

/-- A tail write whose exchange with the firmware fails returns with this machine. -/
def CarriedOutByDevice (m : Machine) (val : UInt32) (m' : Machine) : Prop :=
  Interaction.Returns (e1000SetAtqTail pfAtqt val m) ((), m') ∧
    ∀ desc, .answered desc ∉ m'.trace.drop m.trace.length

/-- Guest RAM, the slot with the written descriptor included, does not tell who carried out the
command. -/
def Indistinguishable (m : Machine) (val : UInt32) : Prop :=
  ∀ fs fs' m₁ m₂, AnsweredByFirmware (withSocket m fs) val m₁ →
    CarriedOutByDevice (withSocket m fs') val m₂ → m₁.ram = m₂.ram

/-- A tail write that returns over a fresh connection was answered in full. -/
theorem AnsweredByFirmware.eq {m m' : Machine} {val : UInt32} (h : AnsweredByFirmware m val m') :
    Answered false m.headDesc ∧ m' = machineAnswered m val := by
  obtain ⟨hconnected, locals, right, link, hecho, hsteps⟩ := h
  have hcarries : Link.fresh.Carries ⟨[], []⟩ ⟨[], []⟩ :=
    ⟨Connection.fresh_holds, Connection.fresh_holds⟩
  by_cases hanswered : Answered false m.headDesc
  · obtain ⟨history, payloads, hsession⟩ :=
      tailWrite_session rfl hconnected hcarries val locals (hecho ▸ hanswered)
    obtain ⟨hfinal, -, -⟩ := (hsession.steps trivial trivial hsteps).left_returned rfl
    cases hfinal
    exact ⟨hanswered, rfl⟩
  · obtain ⟨op, next, history, payloads, hwaits, hsession⟩ :=
      tailWrite_session_unanswered rfl hconnected hcarries val locals (hecho ▸ hanswered)
    obtain ⟨hfinal, -, -⟩ := (hsession.steps hwaits trivial hsteps).left_returned rfl
    contradiction

/-- A tail write that a fresh firmware answers in full can return. -/
theorem answeredByFirmware_machineAnswered {m : Machine} (hconnected : m.dev.fs ≠ invalidSocket)
    (val : UInt32) (hanswered : Answered false m.headDesc) :
    AnsweredByFirmware m val (machineAnswered m val) := by
  have hcarries : Link.fresh.Carries ⟨[], []⟩ ⟨[], []⟩ :=
    ⟨Connection.fresh_holds, Connection.fresh_holds⟩
  obtain ⟨history, payloads, hsession⟩ := tailWrite_session rfl hconnected hcarries val
    ⟨AqDesc.ofBytes [], fun _ => 0, false⟩ hanswered
  obtain ⟨link, -, hsteps⟩ := hsession.reaches
  exact ⟨hconnected, _, _, _, rfl, hsteps⟩

/-- After a failed exchange the device writes its own completion to the slot. -/
theorem CarriedOutByDevice.ram {m m' : Machine} {val : UInt32} (h : CarriedOutByDevice m val m') :
    m'.ram = m.ram.write m.headSlot (completed m.headDesc).bytes := by
  obtain ⟨hreturns, hunanswered⟩ := h
  rw [e1000SetAtqTail_eq] at hreturns
  obtain ⟨executed, hexecuted, hfinished⟩ := Interaction.returns_bind hreturns
  obtain ⟨exchanged, hexchanged, hsettled⟩ :=
    Interaction.returns_bind (executeAqCmd_eq m.headDesc (m.fetched val) ▸ hexecuted)
  have houtcome := (e1000SendAqCmd_exchanged m.headDesc (m.fetched val)).returns hexchanged
  cases hfinished
  by_cases hrc : exchanged.1.1 < 0
  · rw [settleAqCmd_failed hrc] at hsettled
    cases hsettled
    obtain ⟨hresult, hram, -⟩ := houtcome.outcome.resolve_right (by omega)
    simp only [Machine.finished, machineProcessed_ram, hram, hresult]
    rfl
  · rw [settleAqCmd_answered hrc] at hsettled
    cases hsettled
    exfalso
    apply hunanswered exchanged.1.2
    simp [Machine.finished, houtcome.trace, Machine.fetched]

/-- An exchange that is refused leaves the command to the device. -/
theorem exists_carriedOutByDevice (m : Machine) (val : UInt32) :
    ∃ m', CarriedOutByDevice m val m' := by
  refine ⟨_, Interaction.returns_resolve refused _, fun desc => ?_⟩
  exact e1000SetAtqTail_refused val m

/-- The two completions of a command differ only for a heartbeat. -/
theorem respond_eq_completed_iff (desc : AqDesc) :
    respond desc = completed desc ↔
      ¬ (AqOpcode.ofCode desc.opcode = some .driverHeartbeat ∧ desc.retval ≠ rcENOSYS) := by
  unfold respond completed processed
  cases AqOpcode.ofCode desc.opcode with
  | none => simp
  | some opcode =>
    cases opcode with
    | getVersion => simp [Firmware.e1000AqGetVersion, Device.e1000AqGetVersion]
    | driverHeartbeat => simp [AqDesc.mk.injEq]
    | echo => simp

/-- A heartbeat without data whose `retval` is not already the error distinguishes the two. -/
theorem Indistinguishable.not_heartbeat {m : Machine} {val : UInt32} (h : Indistinguishable m val) :
    ¬ (AqOpcode.ofCode m.headDesc.opcode = some .driverHeartbeat ∧ m.headDesc.datalen = 0 ∧
      m.headDesc.retval ≠ rcENOSYS) := by
  rintro ⟨hopcode, hzero, hretval⟩
  obtain ⟨m₂, hdevice⟩ := exists_carriedOutByDevice (withSocket m invalidSocket) val
  have hfirmware := answeredByFirmware_machineAnswered (m := withSocket m 3)
    (show (3 : Int) ≠ invalidSocket by decide) val (.inl hzero)
  have hram := h 3 invalidSocket _ m₂ hfirmware hdevice
  rw [machineAnswered_ram, hdevice.ram] at hram
  have hbytes := AddressSpace.write_inj (by rw [AqDesc.bytes_length, AqDesc.bytes_length])
    (by rw [AqDesc.bytes_length]; decide) hram
  have hdesc : respond m.headDesc = completed m.headDesc := by
    rw [← AqDesc.ofBytes_bytes (respond m.headDesc), ← AqDesc.ofBytes_bytes (completed m.headDesc)]
    exact congrArg AqDesc.ofBytes hbytes
  exact (respond_eq_completed_iff _).mp hdesc ⟨hopcode, hretval⟩

/-- The guest cannot tell the firmware from the device's own switch unless it posts a heartbeat
without data whose `retval` is not already the error. -/
theorem indistinguishable_iff (m : Machine) (val : UInt32)
    (_hfits : m.headDesc.datalen.toNat ≤ datSize) :
    Indistinguishable m val ↔
      ¬ (AqOpcode.ofCode m.headDesc.opcode = some .driverHeartbeat ∧ m.headDesc.datalen = 0 ∧
        m.headDesc.retval ≠ rcENOSYS) := by
  constructor
  · exact Indistinguishable.not_heartbeat
  · intro hnot fs fs' m₁ m₂ hfirmware hdevice
    obtain ⟨hanswered, rfl⟩ := hfirmware.eq
    have hdesc : respond m.headDesc = completed m.headDesc := by
      refine (respond_eq_completed_iff _).mpr fun ⟨hopcode, hretval⟩ => ?_
      rcases hanswered with hzero | hechoes
      · exact hnot ⟨hopcode, hzero, hretval⟩
      · have hnone : echoes false m.headDesc = false := by simp [echoes, hopcode]
        exact absurd hechoes
          (by rw [show (withSocket m fs).headDesc = m.headDesc from rfl, hnone]; decide)
    rw [machineAnswered_ram, hdevice.ram]
    exact congrArg (fun desc => m.ram.write m.headSlot desc.bytes) hdesc

/-- Asking for the version looks the same either way. -/
theorem get_version_indistinguishable : Indistinguishable (machineWithDesc (bareDesc 1)) 1 := by
  refine (indistinguishable_iff _ _ ?_).mpr ?_
  · rw [machineWithDesc_headDesc]
    decide
  · rw [machineWithDesc_headDesc]
    decide

/-- A heartbeat shows the guest who carried it out. -/
theorem heartbeat_distinguishable : ¬ Indistinguishable (machineWithDesc (bareDesc 2)) 1 := by
  intro h
  have hnot := h.not_heartbeat
  rw [machineWithDesc_headDesc] at hnot
  exact hnot (by decide)

end VirtualFirmware.System
