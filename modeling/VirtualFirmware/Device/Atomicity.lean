import VirtualFirmware.Device.RingSemantics

/-!
# What a failed exchange leaves behind

Every failure of `e1000_send_aq_cmd` goes through one label, which closes the socket in use.
Guest memory is written only after the last call that can fail, and the descriptor only when
all have succeeded, so after a failure both are as before.
-/

namespace VirtualFirmware.Device

open Library Messaging Adminq

/-- A call is made on the socket, or returns it. -/
def UsesSocket (fs : Int) : Sigma DeviceReply → Prop
  | ⟨.locate, located⟩ => located = fs
  | ⟨.close fs', _⟩ => fs' = fs
  | ⟨.message fs' _, _⟩ => fs' = fs

/-- A run that failed has changed neither the descriptor nor guest RAM, and its last call closed the
socket that all its calls were about. -/
structure FailedWhole (m : Machine) (desc : AqDesc) (fs : Int) (calls : List (Sigma DeviceReply))
    (result : (Int × AqDesc) × Machine) : Prop where
  desc : result.1.2 = desc
  ram : result.2.ram = m.ram
  disconnected : result.2.dev.fs = invalidSocket
  closed : calls.getLast? = some ⟨.close fs, ()⟩
  uses : ∀ call ∈ calls, UsesSocket fs call

/-- If the run failed, it failed as a whole. -/
def IfFailed (m : Machine) (desc : AqDesc) (fs : Int) (calls : List (Sigma DeviceReply))
    (result : (Int × AqDesc) × Machine) : Prop :=
  result.1.1 = -1 → FailedWhole m desc fs calls result

section Exchange

variable {m m' : Machine} (desc : AqDesc)

/-- A call on the socket in use does not change how a failure ends. -/
theorem FailedWhole.cons {fs : Int} {call : Sigma DeviceReply} {calls : List (Sigma DeviceReply)}
    {result : (Int × AqDesc) × Machine} (huses : UsesSocket fs call)
    (h : FailedWhole m desc fs calls result) : FailedWhole m desc fs (call :: calls) result where
  desc := h.desc
  ram := h.ram
  disconnected := h.disconnected
  closed := by
    rw [List.getLast?_cons, h.closed]
    rfl
  uses := List.forall_mem_cons.mpr ⟨huses, h.uses⟩

/-- A call on the socket in use, followed by programs that fail as a whole. -/
theorem everyRun_message {fs : Int} {op : MessageOp}
    {next : MessageReply op → Interaction DeviceOp DeviceReply ((Int × AqDesc) × Machine)}
    (h : ∀ reply, (next reply).EveryRun (IfFailed m desc fs)) :
    Interaction.EveryRun (IfFailed m desc fs) (.perform (.message fs op) next) := fun reply =>
  (h reply).mono fun _ _ hfailed hrc => (hfailed hrc).cons desc rfl

/-- Dropping the connection is a failure as a whole. -/
theorem sendAqErr_everyRun (h : m'.ram = m.ram) :
    (sendAqErr desc m').EveryRun (IfFailed m desc m'.dev.fs) := fun _ _ =>
  ⟨rfl, h, rfl, rfl, by simp [UsesSocket]⟩

/-- Guest RAM is written only when nothing can fail any more. -/
theorem recvAqBuffer_everyRun (h : m'.ram = m.ram) (recvDesc : AqDesc) :
    (recvAqBuffer desc recvDesc m').EveryRun (IfFailed m desc m'.dev.fs) := by
  have hdone (final : Machine) : IfFailed m desc m'.dev.fs [] ((0, recvDesc), final) :=
    fun hrc => by
    contradiction
  have hallocated : m'.allocated.ram = m.ram := h
  refine Interaction.everyRun_ite ?_ (hdone m')
  exact everyRun_message desc fun received =>
    Interaction.everyRun_ite (sendAqErr_everyRun desc hallocated) (hdone _)

/-- A failure while waiting for the response is one as a whole. -/
theorem recvAqResponse_everyRun (h : m'.ram = m.ram) :
    (recvAqResponse desc m').EveryRun (IfFailed m desc m'.dev.fs) :=
  everyRun_message desc fun _ =>
    Interaction.everyRun_ite (sendAqErr_everyRun desc h) (recvAqBuffer_everyRun desc h _)

/-- A failure while the command's buffer is sent is one as a whole. -/
theorem sendAqBuffer_everyRun (h : m'.ram = m.ram) :
    (sendAqBuffer desc m').EveryRun (IfFailed m desc m'.dev.fs) := by
  have hallocated : m'.allocated.ram = m.ram := h
  refine Interaction.everyRun_ite ?_ (recvAqResponse_everyRun desc h)
  exact everyRun_message desc fun sent =>
    Interaction.everyRun_ite (sendAqErr_everyRun desc hallocated)
      (recvAqResponse_everyRun desc hallocated)

/-- A failure while the command is sent is one as a whole. -/
theorem sendAqDesc_everyRun (h : m'.ram = m.ram) :
    (sendAqDesc desc m').EveryRun (IfFailed m desc m'.dev.fs) :=
  everyRun_message desc fun _ =>
    Interaction.everyRun_ite (sendAqErr_everyRun desc h) (sendAqBuffer_everyRun desc h)

/-- Whatever the calls return, an exchange that failed did so as a whole, on the socket the device
held or else on the one it got. -/
theorem e1000SendAqCmd_everyRun (m : Machine) :
    (e1000SendAqCmd desc m).EveryRun fun calls result =>
      ∃ fs, (m.dev.fs ≠ invalidSocket → fs = m.dev.fs) ∧ IfFailed m desc fs calls result := by
  by_cases hfs : m.dev.fs = invalidSocket
  · have hram (fs : Int) : ({ m with dev := m.dev.withFs fs } : Machine).ram = m.ram := rfl
    have hlocated (fs : Int) : ((if fs = invalidSocket then sendAqErr desc else sendAqDesc desc)
        { m with dev := m.dev.withFs fs }).EveryRun (IfFailed m desc fs) :=
      Interaction.everyRun_ite (sendAqErr_everyRun desc (hram fs))
        (sendAqDesc_everyRun desc (hram fs))
    unfold e1000SendAqCmd
    change ((if m.dev.fs = invalidSocket then _ else _ : DeviceM _) m).EveryRun _
    rw [if_pos hfs]
    intro fs
    exact (hlocated fs).mono fun _ _ h =>
      ⟨fs, fun hvalid => absurd hfs hvalid, fun hrc => (h hrc).cons desc rfl⟩
  · change ((if m.dev.fs = invalidSocket then _ else sendAqDesc desc : DeviceM _) m).EveryRun _
    rw [if_neg hfs]
    exact (sendAqDesc_everyRun desc rfl).mono fun _ _ h => ⟨m.dev.fs, fun _ => rfl, h⟩

end Exchange

/-- After a failed exchange the tail write goes on without a further call. It writes back the
descriptor that was fetched, as the device itself completes it, and leaves the rest of guest RAM. -/
theorem fallback_performs {m m' : Machine} {val : UInt32} {calls : List (Sigma DeviceReply)}
    (h : (e1000SendAqCmd m.headDesc (m.fetched val)).Performs calls ((-1, m.headDesc), m'))
    (hram : m'.ram = m.ram) :
    ∃ final, (e1000SetAtqTail pfAtqt val m).Performs calls ((), final) ∧
      final.ram = m.ram.write m.headSlot (completed m.headDesc).bytes := by
  have hexecuted : (executeAqCmd m.headDesc (m.fetched val)).Performs calls
      (completed m.headDesc, machineProcessed m.headDesc m') := by
    rw [executeAqCmd_eq]
    exact h.bind_pure (settleAqCmd_failed (by decide : (-1 : Int) < 0) _ _)
  refine ⟨(machineProcessed m.headDesc m').finished m.headSlot (completed m.headDesc), ?_, ?_⟩
  · rw [e1000SetAtqTail_eq]
    exact hexecuted.bind_pure rfl
  · rw [Machine.finished, machineProcessed_ram, hram]

/-- An exchange that fails, wherever and for whatever reason, leaves the descriptor and guest RAM as
they were and closes the socket in use. A tail write whose exchange fails therefore completes the
descriptor that was posted. -/
theorem failed_exchange_atomic {m : Machine} {desc : AqDesc} {calls : List (Sigma DeviceReply)}
    {result : (Int × AqDesc) × Machine} (h : (e1000SendAqCmd desc m).Performs calls result)
    (hfailed : result.1.1 = -1) :
    (∃ fs, (m.dev.fs ≠ invalidSocket → fs = m.dev.fs) ∧ FailedWhole m desc fs calls result) ∧
      ∀ (posted : Machine) (val : UInt32), m = posted.fetched val → desc = posted.headDesc →
        ∃ final, (e1000SetAtqTail pfAtqt val posted).Performs calls ((), final) ∧
          final.ram = posted.ram.write posted.headSlot (completed posted.headDesc).bytes := by
  obtain ⟨fs, hheld, hwhole⟩ := (e1000SendAqCmd_everyRun desc m).performs h
  have hwhole := hwhole hfailed
  refine ⟨⟨fs, hheld, hwhole⟩, ?_⟩
  rintro posted val rfl rfl
  obtain ⟨⟨rc, desc⟩, m'⟩ := result
  obtain rfl : rc = -1 := hfailed
  obtain rfl : desc = posted.headDesc := hwhole.desc
  exact fallback_performs h hwhole.ram

/-- A firmware that takes what it is sent and never answers. -/
def silent : (op : DeviceOp) → DeviceReply op
  | .locate => 3
  | .close _ => ()
  | .message _ (.senddata _ _) => { rc := 1 }
  | .message _ (.recvdata data length) => { rc := -1, data, length }

/-- The calls of an exchange in which the descriptor and the buffer of an echo are sent and the
answer does not come. -/
def unansweredEcho : List (Sigma DeviceReply) :=
  (e1000SendAqCmd echoInLastSlot.headDesc (echoInLastSlot.fetched 0)).performed silent

/-- The echo that stands in the last slot is sent and not answered: the last of the four calls
closes the socket, and the slot gets the echo with the done flag. -/
theorem failed_exchange_no_answer :
    unansweredEcho.length = 4 ∧ unansweredEcho.getLast? = some ⟨.close 0, ()⟩ ∧
      ∃ final, (e1000SetAtqTail pfAtqt 0 echoInLastSlot).Performs unansweredEcho ((), final) ∧
        final.ram = echoInLastSlot.ram.write 0x1060 echoAnswer.bytes := by
  have hfailed := failed_exchange_atomic (Interaction.performs_resolve silent
    (e1000SendAqCmd echoInLastSlot.headDesc (echoInLastSlot.fetched 0))) (by decide +kernel)
  have hslot : echoInLastSlot.headSlot = 0x1060 := by decide +kernel
  have hdesc : completed echoInLastSlot.headDesc = echoAnswer := by decide +kernel
  obtain ⟨⟨fs, hheld, hwhole⟩, hwritten⟩ := hfailed
  have hfs : fs = 0 := hheld (by decide +kernel)
  obtain ⟨final, hperforms, hram⟩ := hwritten echoInLastSlot 0 rfl rfl
  rw [hslot, hdesc] at hram
  exact ⟨by decide +kernel, hfs ▸ hwhole.closed, final, hperforms, hram⟩

end VirtualFirmware.Device
