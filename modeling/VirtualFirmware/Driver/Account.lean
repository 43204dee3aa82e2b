import VirtualFirmware.Driver.Cleaning

/-!
# The account of the ring

Programming the ring makes the device process a slot at whatever head it had before, and that
slot keeps its done flag. Cleaning is exact until the commands reach that slot or the end of
the ring, and then it is not.
-/

namespace VirtualFirmware.Driver.Asq

open Library Adminq Device

/-- The account of the ring after some commands, if the head was elsewhere before the ring was
programmed: the last command and that head have left their done flags. -/
structure Account (s : AsqState) (aq : AdminqInfo) (m : Machine) (head served : ℕ) : Prop where
  inStep : InStep aq m served
  entries : 2 ≤ aq.numAsqEntries.toNat
  apart : ∀ i < aq.numAsqEntries.toNat, ∀ k < aq.numAsqEntries.toNat,
    AddressSpace.Apart (recordAt AqDesc.size aq.dma i) AqDesc.size (aq.asqBi k) aq.asqBufSize.toNat
  beforeHead : served ≤ head
  beforeEnd : served ≤ aq.numAsqEntries.toNat
  nextToClean : s.nextToClean.toNat = served - 1
  done : ∀ i < aq.numAsqEntries.toNat, SlotDone m.ram aq.dma i ↔ i + 1 = served ∨ i = head

variable {s : AsqState} {aq : AdminqInfo} {m : Machine} {head served : ℕ}

/-- Until the commands reach the old head or the end of the ring, a cleaning looks at slots of the
ring, ends at `next_to_use`, and leaves no done flag but that of the old head. -/
theorem Account.caughtUp (h : Account s aq m head served) (hhead : served < head)
    (hend : served < aq.numAsqEntries.toNat) :
    (∀ i ∈ (cleanedNow s aq m).inspected, i < aq.count) ∧ (cleanedNow s aq m).last = aq.nextToUse ∧
      ∀ i < aq.numAsqEntries.toNat, SlotDone (cleanedNow s aq m).ram aq.dma i ↔ i = head := by
  have huse : aq.nextToUse.toNat = served := by rw [h.inStep.use, Nat.mod_eq_of_lt hend]
  have hentries := aq.numAsqEntries.toNat_lt
  rw [h.inStep.count]
  cases served with
  | zero =>
    have hstart : s.nextToClean = aq.nextToUse := by
      apply UInt16.toNat_inj.mp
      rw [h.nextToClean, huse]
    have hnot : ¬ SlotDone m.ram aq.dma s.nextToClean.toNat := by
      rw [h.nextToClean, h.done _ hend]
      omega
    rw [cleanedNow, cleaned_of_not_done hnot]
    refine ⟨fun i hi => ?_, hstart, fun i hi => ?_⟩
    · rw [List.mem_singleton.mp hi, hstart, UInt16.lt_iff_toNat_lt, huse]
      exact hend
    · rw [h.done i hi]
      omega
  | succ last =>
    have hclean : s.nextToClean.toNat = last := h.nextToClean
    have hsucc : (s.nextToClean + 1).toNat = last + 1 := by
      rw [toNat_succ aq.numAsqEntries (by omega), hclean]
    have hnext : s.nextToClean + 1 = aq.nextToUse := UInt16.toNat_inj.mp (hsucc.trans huse.symm)
    have hdone : SlotDone m.ram aq.dma s.nextToClean.toNat := by
      rw [hclean, h.done _ (by omega)]
      exact .inl rfl
    have hnot : ¬ SlotDone (cleared aq s.nextToClean m.ram) aq.dma (s.nextToClean + 1).toNat := by
      rw [slotDone_cleared aq _ _ (by omega), hsucc, h.done _ hend]
      omega
    rw [cleanedNow, cleaned_of_done hdone, cleaned_of_not_done hnot]
    refine ⟨fun i hi => ?_, hnext, fun i hi => ?_⟩
    · rcases List.mem_cons.mp hi with rfl | hi
      · rw [UInt16.lt_iff_toNat_lt, hclean]
        omega
      · rw [List.mem_singleton.mp hi, UInt16.lt_iff_toNat_lt, hsucc]
        exact hend
    · rw [slotDone_cleared aq _ _ (by omega), hclean, h.done i hi]
      omega

/-- A cleaning that begins in the ring and before the head is exact. -/
theorem Account.exact (h : Account s aq m head served) (hhead : served < head)
    (hend : served < aq.numAsqEntries.toNat) : (cleaningNow s aq m).Exact aq.numAsqEntries := by
  obtain ⟨hinspected, hlast, -⟩ := h.caughtUp hhead hend
  refine ⟨h.inStep.count ▸ hinspected, hlast, ?_⟩
  have hentries := h.entries
  rw [cleaningNow, hlast, descUnused_self, h.inStep.count, UInt16.toNat_sub_of_le _ _
    (UInt16.le_iff_toNat_le.mpr (by rw [UInt16.toNat_one]; omega)), UInt16.toNat_one]

/-- At the old head the loop takes that slot's done flag for the end of a command. -/
theorem Account.overruns (h : Account s aq m head head) (hhead : head < aq.numAsqEntries.toNat) :
    (∃ k ∈ (cleanedNow s aq m).inspected, ¬ k < aq.numAsqEntries) ∨
      (cleanedNow s aq m).last.toNat = head + 1 := by
  have hlt := aq.numAsqEntries.toNat_lt
  have hclean := h.nextToClean
  have hdoneHead : SlotDone m.ram aq.dma head := (h.done head hhead).mpr (.inr rfl)
  have hdoneNext (hnext : head + 1 < aq.numAsqEntries.toNat) :
      ¬ SlotDone m.ram aq.dma (head + 1) := by
    rw [h.done _ hnext]
    omega
  cases head with
  | zero =>
    have hstart : s.nextToClean.toNat = 0 := hclean
    rw [← hstart] at hhead hdoneHead hdoneNext
    have hrun := cleaned_overruns hhead hdoneHead hdoneNext 65535
    rwa [hstart] at hrun
  | succ last =>
    have hstart : s.nextToClean.toNat = last := hclean
    have hsucc : (s.nextToClean + 1).toNat = last + 1 := by
      rw [toNat_succ aq.numAsqEntries (by omega), hstart]
    have hdone : SlotDone m.ram aq.dma s.nextToClean.toNat := by
      rw [hstart, h.done _ (by omega)]
      exact .inl rfl
    have hdoneHead' : SlotDone (cleared aq s.nextToClean m.ram) aq.dma (last + 1) := by
      rw [slotDone_cleared aq _ _ (by omega)]
      exact ⟨by omega, hdoneHead⟩
    have hdoneNext' (hnext : last + 1 + 1 < aq.numAsqEntries.toNat) :
        ¬ SlotDone (cleared aq s.nextToClean m.ram) aq.dma (last + 1 + 1) := by
      rw [slotDone_cleared aq _ _ (by omega)]
      exact fun hboth => hdoneNext hnext hboth.2
    rw [← hsucc] at hhead hdoneHead' hdoneNext'
    have hrun := cleaned_overruns hhead hdoneHead' hdoneNext' 65534
    rw [hsucc] at hrun
    rw [cleanedNow, cleaned_of_done hdone]
    exact hrun.imp_left fun ⟨k, hmem, hk⟩ => ⟨k, List.mem_cons_of_mem _ hmem, hk⟩

/-- Once the commands reach the old head or the end of the ring, the next cleaning is not exact. -/
theorem Account.not_exact (h : Account s aq m head served)
    (hstop : served = head ∨ served = aq.numAsqEntries.toNat) :
    ¬ (cleaningNow s aq m).Exact aq.numAsqEntries := by
  have hentries := h.entries
  have hlt := aq.numAsqEntries.toNat_lt
  by_cases hend : served = aq.numAsqEntries.toNat
  · -- the last slot of the ring is done, so the loop looks behind the end
    have hlast : s.nextToClean.toNat + 1 = aq.numAsqEntries.toNat := by
      rw [h.nextToClean]
      omega
    have hdone : SlotDone m.ram aq.dma s.nextToClean.toNat := by
      rw [h.done _ (by omega)]
      exact .inl (hlast.trans hend.symm)
    intro hexact
    have hinside := hexact.inspected _ (mem_inspected_succ hdone 65535)
    rw [UInt16.lt_iff_toNat_lt, toNat_succ aq.numAsqEntries (by omega)] at hinside
    omega
  · have hhead : served = head := hstop.resolve_right hend
    have hserved : served < aq.numAsqEntries.toNat := Nat.lt_of_le_of_ne h.beforeEnd hend
    have huse : aq.nextToUse.toNat = served := by rw [h.inStep.use, Nat.mod_eq_of_lt hserved]
    intro hexact
    rcases (hhead ▸ h).overruns (hhead ▸ hserved) with ⟨k, hmem, hk⟩ | hlast
    · exact hk (hexact.inspected k hmem)
    · have hcaught := congrArg UInt16.toNat hexact.caughtUp
      change (cleanedNow s aq m).last.toNat = aq.nextToUse.toNat at hcaught
      omega

/-- The tail write completed the command at the head: it left a done descriptor there and no other
change in the slots of the ring. -/
def Completes (dma : UInt64) (count : ℕ) (before after : Machine) : Prop :=
  ∃ (ram : AddressSpace) (desc : AqDesc), desc.Done ∧
    after.ram = ram.write before.headSlot desc.bytes ∧
    ∀ i < count, descAt ram (recordAt AqDesc.size dma i) =
      descAt before.ram (recordAt AqDesc.size dma i)

/-- After a completed command the slots that are done are its own and those that were before. -/
theorem Completes.slotDone_iff {dma : UInt64} {count slot : ℕ} {before after : Machine}
    (h : Completes dma count before after) (hslot : before.headSlot = recordAt AqDesc.size dma slot)
    (hlt : slot < 2 ^ 32)
    (hcount : count ≤ 2 ^ 32) {i : ℕ} (hi : i < count) :
    SlotDone after.ram dma i ↔ i = slot ∨ SlotDone before.ram dma i := by
  obtain ⟨ram, desc, hdone, hram, hrest⟩ := h
  rw [SlotDone, hram, hslot]
  by_cases hne : i = slot
  · rw [hne, descAt_overwrite]
    exact iff_of_true hdone (.inl rfl)
  · rw [descAt_overwrite_of_ne ram dma (by omega) hlt hne _ (by rw [AqDesc.bytes_length]),
      hrest i hi]
    exact (or_iff_right hne).symm

/-- A command that is posted after an exact cleaning and completed continues the account. -/
theorem Account.next (h : Account s aq m head served) (hhead : served < head)
    (hend : served < aq.numAsqEntries.toNat) {call : AsqCall}
    (hfits : call.buffSize ≤ aq.asqBufSize)
    {s' : AsqState} {m' : Machine} (hclean : s'.nextToClean = (cleanedNow s aq m).last)
    (hwritten : TailWritten (posted aq call { m with ram := (cleanedNow s aq m).ram })
      aq.bumped.nextToUse.toUInt32 m')
    (hcompletes : Completes aq.dma aq.numAsqEntries.toNat
      (posted aq call { m with ram := (cleanedNow s aq m).ram }) m') :
    Account s' aq.bumped m' head (served + 1) := by
  obtain ⟨-, hlast, hdone⟩ := h.caughtUp hhead hend
  have huse : aq.nextToUse.toNat = served := by rw [h.inStep.use, Nat.mod_eq_of_lt hend]
  have hentries := aq.numAsqEntries.toNat_lt
  have hinStep : InStep aq { m with ram := (cleanedNow s aq m).ram } served :=
    ⟨h.inStep.entries, h.inStep.count, h.inStep.ring, h.inStep.use, h.inStep.head, h.inStep.tail⟩
  refine ⟨hinStep.next hwritten, h.entries, h.apart, hhead, hend, ?_, fun i hi => ?_⟩
  · rw [hclean, hlast, huse, Nat.add_sub_cancel]
  · have hi : i < aq.numAsqEntries.toNat := hi
    have hslot : (posted aq call { m with ram := (cleanedNow s aq m).ram }).headSlot =
        recordAt AqDesc.size aq.dma served := by
      rw [← huse, ← aq.slot_eq]
      exact hinStep.headSlot
    have hafter := hcompletes.slotDone_iff hslot (by omega) (by omega) hi
    have hbuf := (h.apart i hi aq.nextToUse.toNat (by omega)).mono (UInt16.le_iff_toNat_le.mp hfits)
    change SlotDone m'.ram aq.dma i ↔ _
    rw [hafter]
    by_cases hne : i = served
    · exact iff_of_true (.inl hne) (.inl (congrArg (· + 1) hne))
    · have hposted := descAt_posted_of_ne aq call { m with ram := (cleanedNow s aq m).ram }
        (by omega) (huse ▸ hne) hbuf
      have hkept : SlotDone (posted aq call { m with ram := (cleanedNow s aq m).ram }).ram aq.dma
          i ↔ i = head := by
        rw [SlotDone, hposted]
        exact hdone i hi
      rw [hkept]
      omega

end VirtualFirmware.Driver.Asq
