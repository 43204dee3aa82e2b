import VirtualFirmware.Device.DmaExchange
import VirtualFirmware.Device.NestedTail

/-!
# When a tail write calls itself

The ranges a tail write writes are chosen by the guest and the firmware. If one of them covers
`PF_ATQT`, the handler runs again inside itself; if one covers `PF_ATQH` or `PF_ATQLEN`, the head
may not end up one slot further; if one covers `TCTL` or `TDT`, the transmit path may run inside
the handler and write to memory of its own. With a ring whose head slot covers `PF_ATQT` the calls
never end.
-/

namespace VirtualFirmware.Device

open Library Messaging Adminq

/-- The ranges that a tail write writes, in order. -/
def Outcome.dmaWrites (map : MemoryMap) (m : Machine) (val : UInt32) (outcome : Outcome) :
    List (UInt64 × List UInt8) :=
  outcome.copies map m (map.fetchedDesc m val) ++
    [(m.headSlot, (outcome.writtenDesc (map.fetchedDesc m val)).bytes)]

/-- The head that follows. -/
def QueueView.next (q : QueueView) : UInt32 :=
  nextHead q.head (q.len &&& ~~~ atqEnableMask).toUInt16

/-- What the ranges store in `TCTL`, `TDT` and `TDH` has the transmit path take a descriptor. -/
def StartsTransmission (map : MemoryMap) (m : Machine) (val : UInt32) (outcome : Outcome) : Prop :=
  (map.queueAfter m (outcome.dmaWrites map m val)).transmits = true

/-- None of the ranges covers `PF_ATQT`, the transmit path takes no descriptor, and what the ranges
store in `PF_ATQH` and `PF_ATQLEN` leaves the next head the same. -/
structure Undisturbed (map : MemoryMap) (m : Machine) (val : UInt32) (outcome : Outcome) :
    Prop where
  tail : ∀ write ∈ map.registerWrites (outcome.dmaWrites map m val), write.1 ≠ pfAtqt
  quiet : ¬ StartsTransmission map m val outcome
  next : (map.queueAfter m (outcome.dmaWrites map m val)).next = m.queueView.next

/-- The tail handler was not called again, and the head moved by one slot. -/
def OnceAndAdvanced (m : Machine) (st : Mapped) : Prop :=
  st.cutOff = false ∧
    st.machine.dev.macReg pfAtqh = nextHead (m.dev.macReg pfAtqh) m.dev.ring.ringLen

/-- The tail was written if one of the writes was to it. -/
theorem foldl_access_tailWritten (writes : List (ℕ × UInt32)) (q : QueueView) :
    (writes.foldl QueueView.access q).tailWritten = false ↔
      q.tailWritten = false ∧ ∀ write ∈ writes, write.1 ≠ pfAtqt := by
  induction writes generalizing q with
  | nil => simp
  | cons write rest ih =>
    rw [List.foldl_cons, ih, List.forall_mem_cons]
    by_cases htail : write.1 = pfAtqt
    · simp [QueueView.access, htail]
    · have hother : (q.access write).tailWritten = q.tailWritten := by
        unfold QueueView.access
        rw [if_neg htail]
        split_ifs <;> rfl
      simp [hother, htail]

section Handler

variable (map : MemoryMap) (xmit : Transmit) (m : Machine) (val : UInt32)

/-- Moving the head changes one register. -/
theorem mapped_advanceHead (tail : UInt32 → MappedM Unit) (st : Mapped) :
    (mappedPlatform map xmit tail).advanceHead st =
      .pure ((), { st with
        machine := { st.machine with dev := st.machine.dev.setMac pfAtqh st.view.next } }) := by
  change (if (st.machine.dev.setMac pfAtqh (st.machine.dev.macReg pfAtqh + 1)).macReg pfAtqh ≥
    st.machine.dev.ring.ringLen.toUInt32 then (mappedPlatform map xmit tail).setMacReg pfAtqh 0
      else pure () : MappedM Unit)
        { st with machine := { st.machine with
            dev := st.machine.dev.setMac pfAtqh (st.machine.dev.macReg pfAtqh + 1) } } = _
  have hnext : st.view.next = nextHead (st.machine.dev.macReg pfAtqh) st.machine.dev.ring.ringLen :=
    rfl
  rw [E1000State.setMac_self, hnext, nextHead]
  split
  · rw [← E1000State.setMac_setMac st.machine.dev pfAtqh (st.machine.dev.macReg pfAtqh + 1) 0]
    rfl
  · rfl

/-- Writing the descriptor back has its effect on the queue, and then the head moves. -/
theorem finishAqCmd_queue (base : UInt64) (desc : AqDesc) (st : Mapped) :
    Interaction.Always
      (fun result => result.2.calls = st.calls ∧
        ∃ q, q = (map.registerWrites [(base, desc.bytes)]).foldl QueueView.access st.view ∧
          (q.transmits = false →
            result.2.cutOff = q.tailWritten ∧ result.2.machine.dev.macReg pfAtqh = q.next))
      ((mappedPlatform map xmit tailAtLimit).finishAqCmd base desc st) := by
  rw [AqPlatform.finishAqCmd, always_sequence]
  refine (memoryWrite_writes map xmit base desc.bytes st).mono fun result h => ?_
  change Interaction.Always _ ((mappedPlatform map xmit tailAtLimit).advanceHead
    { result.2 with machine := { result.2.machine with
        trace := result.2.machine.trace ++ [.writtenBack result.2.machine.dev.ring base desc] } })
  rw [mapped_advanceHead]
  refine ⟨h.calls, _, rfl, fun hquiet => ?_⟩
  rw [← h.shows hquiet]
  exact ⟨rfl, E1000State.setMac_self _ _ _⟩

/-- Reading the descriptor leaves the queue alone. -/
theorem fetchedMachine_unanswered : Unanswered m ⟨map.fetchedMachine m val, [], false⟩ where
  view := by
    have hread :=
      readPieces_view (map.pieces m.headSlot AqDesc.size) ⟨m.tailSaved val, [], false⟩ []
    exact hread.trans ((tailSaved_sameQueue m val).view [] [] false)
  isOpen := rfl
  nothing := rfl

/-- The copies are the first ranges that are written, and the slot is the last. -/
theorem queueAfter_dmaWrites (outcome : Outcome) :
    map.queueAfter m (outcome.dmaWrites map m val) =
      (map.registerWrites [(m.headSlot, (outcome.writtenDesc (map.fetchedDesc m val)).bytes)]).foldl
        QueueView.access (map.queueAfter m (outcome.copies map m (map.fetchedDesc m val))) := by
  simp only [Outcome.dmaWrites, MemoryMap.queueAfter, MemoryMap.registerWrites,
    List.flatMap_append, List.foldl_append]

/-- A tail write leaves the queue as its ranges say, with the head moved on, unless they start a
transmission. -/
theorem mappedTail_queue :
    Interaction.Always
      (fun result => ∃ q, q = map.queueAfter m ((Outcome.of result.2.calls).dmaWrites map m val) ∧
        (q.transmits = false →
          result.2.cutOff = q.tailWritten ∧ result.2.machine.dev.macReg pfAtqh = q.next))
      (mappedTail map xmit 1 val ⟨m, [], false⟩) := by
  change Interaction.Always _
    ((mappedPlatform map xmit tailAtLimit).e1000SetAtqTail pfAtqt val ⟨m, [], false⟩)
  rw [mappedTail_eq, always_sequence]
  refine (executeAqCmd_carriesOut map xmit _ (fetchedMachine_unanswered map m val)).mono
    fun executed hexecuted => (finishAqCmd_queue map xmit _ _ _).mono fun final hfinal => ?_
  obtain ⟨hdesc, hshows⟩ := hexecuted
  obtain ⟨hcalls, q, hq, hqueue⟩ := hfinal
  refine ⟨_, rfl, fun hquiet => ?_⟩
  rw [← hcalls] at hdesc hshows
  rw [queueAfter_dmaWrites, ← hdesc] at hquiet ⊢
  have hcopied := hshows (foldl_access_transmits hquiet)
  rw [← hcopied, ← hq] at hquiet ⊢
  exact hqueue hquiet

end Handler

/-- A register window below 4 GiB, and RAM everywhere else. -/
def windowMap : MemoryMap := ⟨0xF0000000, fun _ => true, by decide⟩

/-- A machine whose ring is at `PF_ATQT`. -/
def ringAtTail : Machine := { (default : Machine) with
  dev := (default : E1000State).setMac pfAtqbal 0xF0006010 }

end VirtualFirmware.Device
