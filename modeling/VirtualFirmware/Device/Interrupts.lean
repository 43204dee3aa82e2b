import VirtualFirmware.Device.MacWrites

/-!
# Interrupt causes

All interrupts go through `set_interrupt_cause`, which keeps `ICR` and its shadow `ICS` alike and
sets the interrupt line. Causes add up, so raising two after another is raising both.
-/

namespace VirtualFirmware.Device

open Library

/-- The value of `ICR` for some causes: `E1000_ICR_INT_ASSERTED` is set if there is one. -/
def asserted (causes : UInt32) : UInt32 := if causes ≠ 0 then causes ||| 0x80000000 else causes

/-- There is a cause in `ICR` if one was to be set. -/
theorem asserted_eq_zero {causes : UInt32} : asserted causes = 0 ↔ causes = 0 := by
  unfold asserted
  split
  · rename_i hcauses
    simp [hcauses]
  · rfl

/-- Causes that are asserted already may be asserted again. -/
theorem asserted_or_asserted (first second : UInt32) :
    asserted (second ||| asserted first) = asserted (first ||| second) := by
  unfold asserted
  by_cases hfirst : first = 0
  · simp only [hfirst, ne_eq, not_true_eq_false, if_false, UInt32.or_zero, UInt32.zero_or]
  · have hboth : first ||| second ≠ 0 := fun h => hfirst (UInt32.or_eq_zero_iff.mp h).1
    have hagain : second ||| (first ||| 0x80000000) ≠ 0 := fun h =>
      hfirst (UInt32.or_eq_zero_iff.mp (UInt32.or_eq_zero_iff.mp h).2).1
    rw [if_pos hfirst, if_pos hagain, if_pos hboth, ← UInt32.or_assoc, UInt32.or_assoc _ 0x80000000,
      UInt32.or_self, UInt32.or_comm second]

/-- Assignments to different registers may be exchanged. -/
theorem E1000State.setMac_comm (s : E1000State) {first second : ℕ} (hne : first ≠ second)
    (v w : UInt32) :
    (s.setMac first v).setMac second w = (s.setMac second w).setMac first v := by
  have hregs : setReg (setReg s.macReg first v) second w =
      setReg (setReg s.macReg second w) first v := by
    funext i
    simp only [setReg]
    split
    · rename_i hi
      rw [if_neg fun h => hne (h.symm.trans hi)]
    · rfl
  simp only [E1000State.setMac, hregs]

/-- The device with the interrupt line at some level. -/
def E1000State.setIrq (s : E1000State) (level : Bool) : E1000State := { s with irq := level }

/-- `set_interrupt_cause` stores the causes in `ICR` and `ICS` and sets the line from the mask. -/
theorem setInterruptCause_eq (s : E1000State) (causes : UInt32) :
    setInterruptCause s 0 causes =
      ((s.setMac MacReg.icr.index (asserted causes)).setMac MacReg.ics.index
        (asserted causes)).setIrq
        (s.macReg MacReg.ims.index &&& asserted causes ≠ 0) :=
  rfl

/-- `set_interrupt_cause` changes no register but `ICR` and `ICS`. -/
theorem setInterruptCause_of_ne (s : E1000State) (causes : UInt32) {index : ℕ}
    (hicr : index ≠ MacReg.icr.index) (hics : index ≠ MacReg.ics.index) :
    (setInterruptCause s 0 causes).macReg index = s.macReg index :=
  (E1000State.setMac_of_ne _ _ hics).trans (E1000State.setMac_of_ne _ _ hicr)

/-- The causes are in `ICR`. -/
theorem setInterruptCause_icr (s : E1000State) (causes : UInt32) :
    (setInterruptCause s 0 causes).macReg MacReg.icr.index = asserted causes := by
  change ((s.setMac MacReg.icr.index (asserted causes)).setMac MacReg.ics.index
    (asserted causes)).macReg
    MacReg.icr.index = _
  rw [E1000State.setMac_of_ne _ _ (by decide), E1000State.setMac_self]

/-- Setting causes commutes with assignments to other registers. -/
theorem setInterruptCause_setMac (s : E1000State) (causes : UInt32) {index : ℕ}
    (hicr : index ≠ MacReg.icr.index) (hics : index ≠ MacReg.ics.index)
    (hims : index ≠ MacReg.ims.index)
    (value : UInt32) :
    setInterruptCause (s.setMac index value) 0 causes =
      (setInterruptCause s 0 causes).setMac index value := by
  rw [setInterruptCause_eq, setInterruptCause_eq, s.setMac_of_ne value hims.symm,
    s.setMac_comm hicr, E1000State.setMac_comm _ hics]
  rfl

/-- Causes that are set take the place of earlier ones. -/
theorem setInterruptCause_twice (s : E1000State) (first second : UInt32) :
    setInterruptCause (setInterruptCause s 0 first) 0 second = setInterruptCause s 0 second := by
  have hims :=
    setInterruptCause_of_ne s first (by decide : MacReg.ims.index ≠ MacReg.icr.index) (by decide)
  have hregs : (((s.setMac MacReg.icr.index (asserted first)).setMac MacReg.ics.index
      (asserted first)).setMac MacReg.icr.index (asserted second)).setMac MacReg.ics.index
      (asserted second) =
      (s.setMac MacReg.icr.index (asserted second)).setMac MacReg.ics.index (asserted second) := by
    rw [E1000State.setMac_comm _ (by decide : MacReg.ics.index ≠ MacReg.icr.index),
      E1000State.setMac_setMac, E1000State.setMac_setMac]
  rw [setInterruptCause_eq (setInterruptCause s 0 first), hims,
    setInterruptCause_eq s second, ← hregs]
  rfl

/-- Raising interrupts commutes with assignments to other registers. -/
theorem setIcs_setMac (s : E1000State) (causes : UInt32) {index : ℕ}
    (hicr : index ≠ MacReg.icr.index) (hics : index ≠ MacReg.ics.index)
    (hims : index ≠ MacReg.ims.index) (value : UInt32) :
    setIcs (s.setMac index value) 0 causes = (setIcs s 0 causes).setMac index value := by
  unfold setIcs
  rw [s.setMac_of_ne value hicr.symm, setInterruptCause_setMac s _ hicr hics hims]

/-- Raising two causes one after another is raising both. -/
theorem setIcs_setIcs (s : E1000State) (first second : UInt32) :
    setIcs (setIcs s 0 first) 0 second = setIcs s 0 (first ||| second) := by
  have hcauses : asserted (second ||| asserted (first ||| s.macReg MacReg.icr.index)) =
      asserted (first ||| second ||| s.macReg MacReg.icr.index) := by
    rw [asserted_or_asserted, UInt32.or_assoc, UInt32.or_comm (s.macReg _), UInt32.or_assoc]
  unfold setIcs
  rw [setInterruptCause_icr, setInterruptCause_twice, setInterruptCause_eq,
    setInterruptCause_eq, hcauses]

/-- Bits that are set in a word are set in one with more. -/
theorem and_or_of_and {bits word : UInt32} (h : bits &&& word = bits) (more : UInt32) :
    bits &&& (word ||| more) = bits := by
  apply UInt32.toBitVec_inj.mp
  ext i hi
  have hbit := congrArg (fun value : UInt32 => value.toBitVec[i]) h
  simp only [UInt32.toBitVec_and, UInt32.toBitVec_or, BitVec.getElem_and, BitVec.getElem_or,
    Bool.and_eq_left_iff_imp, Bool.or_eq_true] at hbit ⊢
  exact fun hset => .inl (hbit hset)

/-- Some causes are all set in `ICR`. -/
def Raised (s : E1000State) (causes : UInt32) : Prop :=
  causes &&& s.macReg MacReg.icr.index = causes

/-- Causes that are asserted are pending. -/
theorem raised_setInterruptCause {bits causes : UInt32} (h : bits &&& causes = bits)
    (s : E1000State) :
    Raised (setInterruptCause s 0 causes) bits := by
  rw [Raised, setInterruptCause_icr, asserted]
  split
  · exact and_or_of_and h _
  · exact h

/-- Causes that are raised are pending. -/
theorem raised_setIcs {bits causes : UInt32} (h : bits &&& causes = bits) (s : E1000State) :
    Raised (setIcs s 0 causes) bits :=
  raised_setInterruptCause (and_or_of_and h _) s

/-- Causes stay pending when others are raised. -/
theorem Raised.setIcs {s : E1000State} {bits : UInt32} (h : Raised s bits) (causes : UInt32) :
    Raised (Device.setIcs s 0 causes) bits :=
  raised_setInterruptCause (by rw [UInt32.or_comm]; exact and_or_of_and h _) s

end VirtualFirmware.Device
