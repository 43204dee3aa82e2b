import VirtualFirmware.Device.PhysicalMemory

/-!
# The admin queue's registers under accesses to the register window

Every access reads or writes one register. The registers that matter here are those of the admin
queue and the three that decide whether a transmission starts. Of all handlers only those of
these registers change them, so their values after a number of accesses follow from the accesses
to them.
-/

namespace VirtualFirmware.Device

open Library

/-- The register belongs to the admin queue. -/
def InQueue (reg : ℕ) : Prop := pfAtqbah ≤ reg ∧ reg ≤ pfAtqt

instance (reg : ℕ) : Decidable (InQueue reg) := inferInstanceAs (Decidable (_ ∧ _))

/-- The queue's registers come after the others. -/
theorem MacReg.index_lt (reg : MacReg) : reg.index < pfAtqbah := by
  cases reg <;> decide

/-- A named register does not belong to the admin queue. -/
theorem InQueue.ne_index {reg : ℕ} (h : InQueue reg) (other : MacReg) : reg ≠ other.index :=
  (other.index_lt.trans_le h.1).ne'

/-- The register belongs to the admin queue or decides whether a transmission starts. -/
def Watched (reg : ℕ) : Prop :=
  InQueue reg ∨ reg ∈ [MacReg.tctl.index, MacReg.tdh.index, MacReg.tdt.index]

instance (reg : ℕ) : Decidable (Watched reg) := inferInstanceAs (Decidable (_ ∨ _))

/-- A register of the one kind is not one of the other. -/
theorem Watched.ne {reg : ℕ} (h : Watched reg) (other : ℕ) (hother : ¬ Watched other) :
    reg ≠ other := fun heq => hother (heq ▸ h)

/-- A handler changes one of these registers only if it is called for it. -/
def WriteOp.KeepsQueue : WriteOp → Prop
  | .device handler => ∀ s index val reg, Watched reg → reg ≠ index →
      (handler s index val).macReg reg = s.macReg reg
  | .setTctl => True
  | .e1000SetAtqTail => True

section Handlers

variable {s : E1000State} {index reg : ℕ} {val : UInt32}

/-- Raising an interrupt changes the cause registers. -/
theorem setInterruptCause_macReg (h : Watched reg) :
    (setInterruptCause s index val).macReg reg = s.macReg reg := by
  simp only [setInterruptCause, E1000State.setMac_of_ne _ _ (h.ne MacReg.ics.index (by decide)),
    E1000State.setMac_of_ne _ _ (h.ne MacReg.icr.index (by decide))]

/-- Setting causes changes the cause registers. -/
theorem setIcs_macReg (h : Watched reg) : (setIcs s index val).macReg reg = s.macReg reg :=
  setInterruptCause_macReg h

/-- An access to the PHY changes the interface's and the cause registers. -/
theorem setMdic_macReg (h : Watched reg) : (setMdic s index val).macReg reg = s.macReg reg := by
  have hset (s : E1000State) (val cause : UInt32) :
      (setIcs (s.setMac MacReg.mdic.index val) 0 cause).macReg reg = s.macReg reg := by
    rw [setIcs_macReg h, E1000State.setMac_of_ne _ _ (h.ne MacReg.mdic.index (by decide))]
  unfold setMdic
  simp only
  split
  · exact hset _ _ _
  · split
    · split <;> exact hset _ _ _
    · split
      · split <;> exact hset _ _ _
      · exact hset _ _ _

/-- The EEPROM's interface has its own state. -/
theorem setEecd_macReg : (setEecd s index val).macReg reg = s.macReg reg := by
  simp only [setEecd, apply_ite E1000State.macReg, ite_self]

end Handlers

/-- Every handler keeps these registers apart from its own. -/
theorem macregWriteops_keepsQueue : ∀ entry ∈ macregWriteops, entry.op.KeepsQueue := by
  have hwrite : (WriteOp.device macWritereg).KeepsQueue := fun s _ val _ _ hne =>
    s.setMac_of_ne val hne
  have hdlen : (WriteOp.device setDlen).KeepsQueue := fun s _ _ _ _ hne => s.setMac_of_ne _ hne
  have h16bit : (WriteOp.device set16bit).KeepsQueue := fun s _ _ _ _ hne => s.setMac_of_ne _ hne
  have hrdt : (WriteOp.device setRdt).KeepsQueue := fun s _ _ _ _ hne =>
    E1000State.setMac_of_ne { s with checkRxov := false } _ hne
  have hmdic : (WriteOp.device setMdic).KeepsQueue := fun _ _ _ _ h _ => setMdic_macReg h
  have hics : (WriteOp.device setIcs).KeepsQueue := fun _ _ _ _ h _ => setIcs_macReg h
  have hicr : (WriteOp.device setIcr).KeepsQueue := fun _ _ _ _ h _ => setInterruptCause_macReg h
  have hims : (WriteOp.device setIms).KeepsQueue := fun s _ _ _ h _ =>
    (setIcs_macReg h).trans (s.setMac_of_ne _ (h.ne MacReg.ims.index (by decide)))
  have himc : (WriteOp.device setImc).KeepsQueue := fun s _ _ _ h _ =>
    (setIcs_macReg h).trans (s.setMac_of_ne _ (h.ne MacReg.ims.index (by decide)))
  have heecd : (WriteOp.device setEecd).KeepsQueue := fun _ _ _ _ _ _ => setEecd_macReg
  have hrctl : (WriteOp.device setRxControl).KeepsQueue := fun s _ _ _ h _ =>
    s.setMac_of_ne _ (h.ne MacReg.rctl.index (by decide))
  have hctrl : (WriteOp.device setCtrl).KeepsQueue := fun s _ _ _ h _ =>
    s.setMac_of_ne _ (h.ne MacReg.ctrl.index (by decide))
  have htctl : WriteOp.setTctl.KeepsQueue := trivial
  have htail : WriteOp.e1000SetAtqTail.KeepsQueue := trivial
  simp only [macregWriteops, putreg, MacReg.entry, List.forall_mem_cons, hwrite, hdlen, h16bit,
    hrdt, hmdic, hics, hicr, hims, himc, heecd, hrctl, hctrl, htctl, htail, and_self,
    List.not_mem_nil, false_implies, implies_true]

/-- Reading the registers of an entry changes none of these registers. -/
def ReadEntry.KeepsQueue (entry : ReadEntry) : Prop :=
  ∀ s index reg, entry.first ≤ index → index ≤ entry.last → Watched reg →
    (entry.op s index).2.macReg reg = s.macReg reg

/-- No read changes these registers. -/
theorem macregReadops_keepsQueue : ∀ entry ∈ macregReadops, entry.KeepsQueue := by
  have hread (first last : ℕ) : ReadEntry.KeepsQueue ⟨first, last, macReadreg⟩ :=
    fun _ _ _ _ _ _ => rfl
  have hclr4 (other : MacReg) (hother : ¬ Watched other.index) :
      ReadEntry.KeepsQueue ⟨other.index, other.index, macReadClr4⟩ := by
    intro s index reg hfirst hlast h
    obtain rfl := Nat.le_antisymm hlast hfirst
    exact s.setMac_of_ne _ (h.ne _ hother)
  have hclr8 (other : MacReg) (hother : ¬ Watched other.index)
      (hlow : ¬ Watched (other.index - 1)) :
      ReadEntry.KeepsQueue ⟨other.index, other.index, macReadClr8⟩ := by
    intro s index reg hfirst hlast h
    obtain rfl := Nat.le_antisymm hlast hfirst
    exact ((s.setMac _ 0).setMac_of_ne _ (h.ne _ hlow)).trans (s.setMac_of_ne _ (h.ne _ hother))
  have hicr : ReadEntry.KeepsQueue ⟨MacReg.icr.index, MacReg.icr.index, macIcrRead⟩ := by
    intro s index reg _ _ h
    change (setInterruptCause s 0 0).macReg reg = s.macReg reg
    exact setInterruptCause_macReg h
  have heecd : ReadEntry.KeepsQueue ⟨MacReg.eecd.index, MacReg.eecd.index, getEecd⟩ :=
    fun _ _ _ _ _ _ => rfl
  have heerd : ReadEntry.KeepsQueue ⟨MacReg.eerd.index, MacReg.eerd.index, flashEerdRead⟩ :=
    fun _ _ _ _ _ _ => rfl
  simp only [macregReadops, getreg, List.forall_mem_cons, hread, hicr, heecd, heerd, and_self,
    true_and, and_true, List.not_mem_nil, false_implies, implies_true]
  exact ⟨hclr8 .toth (by decide) (by decide), hclr8 .torh (by decide) (by decide),
    hclr4 .gprc (by decide), hclr4 .gptc (by decide), hclr4 .tpr (by decide),
    hclr4 .tpt (by decide)⟩

/-- A read through the window changes none of these registers. -/
theorem e1000MmioReadl_macReg {reg : ℕ} (h : Watched reg) (addr : ℕ) (s : E1000State) :
    (e1000MmioReadl addr s).2.macReg reg = s.macReg reg := by
  unfold e1000MmioReadl readopOf
  cases hfind : macregReadops.find? fun entry =>
      entry.first ≤ regIndex addr ∧ regIndex addr ≤ entry.last with
  | none => rfl
  | some entry =>
    have hcovers := List.find?_some hfind
    simp only [decide_eq_true_eq] at hcovers
    exact macregReadops_keepsQueue entry (List.mem_of_find?_eq_some hfind) s _ reg hcovers.1
      hcovers.2 h

end VirtualFirmware.Device
