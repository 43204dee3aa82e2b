import VirtualFirmware.Device.Interrupts
import VirtualFirmware.Device.MacReads

/-!
# What an access to a register does

There are some two hundred registers and a dozen handlers for them. An access does one of a few
things to the device, so what holds of each of these holds of every access.
-/

namespace VirtualFirmware.Device

open Library

/-- The statistics that reading clears. -/
def readCleared : List MacReg := [.gprc, .gptc, .tpr, .tpt]

/-- The registers that other parts of the device depend on: the interrupt causes and their mask, the
control of the receiver, and the statistics. -/
def tiedRegs : List MacReg := [.icr, .ics, .ims, .rctl, .torl, .torh, .totl, .toth] ++ readCleared

/-- Nothing depends on the register. -/
def Loose (index : ℕ) : Prop := ∀ reg ∈ tiedRegs, index ≠ reg.index

instance (index : ℕ) : Decidable (Loose index) :=
  inferInstanceAs (Decidable (∀ reg ∈ tiedRegs, index ≠ reg.index))

/-- The registers behind the statistics are loose. -/
theorem loose_of_mta_le {index : ℕ} (h : MacReg.mta.index ≤ index) : Loose index := by
  have hbefore : ∀ reg ∈ tiedRegs, reg.index < MacReg.mta.index := by decide
  exact fun reg hreg => ((hbefore reg hreg).trans_le h).ne'

/-- The registers of the PHY that may not be written are as before. -/
def PhyKept (regs regs' : ℕ → UInt16) : Prop :=
  ∀ addr, phyRegcap addr &&& 2 = 0 → regs' addr = regs addr

/-- What a write to a register can do to the device. -/
inductive WriteEffect (index : ℕ) (s : E1000State) : E1000State → Prop
  | store (h : Loose index) (value : UInt32) : WriteEffect index s (s.setMac index value)
  | giveSlots (h : index = MacReg.rdt.index) (value : UInt32) :
      WriteEffect index s ({ s with checkRxov := false }.setMac index value)
  | raise (mask causes : UInt32) :
      WriteEffect index s (setIcs (s.setMac MacReg.ims.index mask) 0 causes)
  | acknowledge (h : index = MacReg.icr.index) (causes : UInt32) :
      WriteEffect index s (setInterruptCause s 0 causes)
  | manage (h : index = MacReg.mdic.index) (value : UInt32) {regs : ℕ → UInt16}
      (hregs : PhyKept s.phyReg regs) :
      WriteEffect index s
        (setIcs ({ s with phyReg := regs }.setMac MacReg.mdic.index value) 0 0x200)
  | serial (eecd : EecdState) : WriteEffect index s { s with eecdState := eecd }
  | control (h : index = MacReg.rctl.index) (value : UInt32) :
      WriteEffect index s (setRxControl s index value)

section Handlers

variable (s : E1000State) (index : ℕ) (val : UInt32)

/-- Assigning a register its own value changes nothing. -/
theorem E1000State.setMac_same : s.setMac index (s.macReg index) = s := by
  have hregs : setReg s.macReg index (s.macReg index) = s.macReg := by
    funext i
    by_cases h : i = index
    · rw [h, setReg_self]
    · rw [setReg_of_ne _ _ h]
  simp only [E1000State.setMac, hregs]

/-- `set_ics` raises causes. -/
theorem setIcs_effect : WriteEffect index s (setIcs s index val) := by
  have h : WriteEffect index s
      (setIcs (s.setMac MacReg.ims.index (s.macReg MacReg.ims.index)) 0 val) :=
    .raise _ val
  rwa [s.setMac_same] at h

/-- `set_mdic` writes only the registers of the PHY that may be written. -/
theorem setMdic_effect (h : index = MacReg.mdic.index) :
    WriteEffect index s (setMdic s index val) := by
  have hread (value : UInt32) :
      WriteEffect index s (setIcs (s.setMac MacReg.mdic.index value) 0 0x200) :=
    .manage h value fun _ _ => rfl
  unfold setMdic
  dsimp only
  split
  · exact hread _
  · split
    · split
      · exact hread _
      · exact hread _
    · split
      · split
        · exact hread _
        · rename_i hallowed
          refine .manage h _ fun addr haddr => setReg_of_ne _ _ fun hsame => hallowed ?_
          rwa [hsame] at haddr
      · exact hread _

/-- `set_eecd` changes the state of the serial interface. -/
theorem setEecd_effect : WriteEffect index s (setEecd s index val) := by
  unfold setEecd
  dsimp only
  split_ifs <;> exact .serial _

end Handlers

/-- The handler of an entry has one of the effects on the registers it serves. -/
def WriteEntry.Effective (entry : WriteEntry) : Prop :=
  ∀ handler, entry.op = .device handler → ∀ s index val, entry.Covers index →
    WriteEffect index s (handler s index val)

/-- Every handler has one of the effects. -/
theorem macregWriteops_effective : ∀ entry ∈ macregWriteops, entry.Effective := by
  have hone {reg : MacReg} {handler : E1000State → ℕ → UInt32 → E1000State}
      (h : ∀ s val, WriteEffect reg.index s (handler s reg.index val)) :
      (reg.entry (.device handler)).Effective := by
    rintro _ ⟨⟩ s index val ⟨hfirst, hlast⟩
    obtain rfl := Nat.le_antisymm hlast hfirst
    exact h s val
  have hput {reg : MacReg} (h : Loose reg.index) : (putreg reg).Effective :=
    hone fun _ _ => .store h _
  have hdlen {reg : MacReg} (h : Loose reg.index) : (reg.entry (.device setDlen)).Effective :=
    hone fun _ _ => .store h _
  have h16bit {reg : MacReg} (h : Loose reg.index) : (reg.entry (.device set16bit)).Effective :=
    hone fun _ _ => .store h _
  have hrange {first last : ℕ} (h : MacReg.mta.index ≤ first) :
      WriteEntry.Effective ⟨first, last, .device macWritereg⟩ := by
    rintro _ ⟨⟩ s index val ⟨hfirst, -⟩
    exact .store (loose_of_mta_le (h.trans hfirst)) _
  have hacting {first last : ℕ} {op : WriteOp} (h : ∀ handler, op ≠ .device handler) :
      WriteEntry.Effective ⟨first, last, op⟩ :=
    fun handler hop => absurd hop (h handler)
  simp only [macregWriteops, List.forall_mem_cons]
  exact ⟨hput (by decide), hput (by decide), hput (by decide), hput (by decide), hput (by decide),
    hput (by decide), hput (by decide), hput (by decide), hput (by decide), hput (by decide),
    hput (by decide),
    hdlen (by decide), hdlen (by decide), hacting (by simp), hacting (by simp),
    hone fun s val => setMdic_effect s _ val rfl, hone fun s val => setIcs_effect s _ val,
    h16bit (by decide),
    h16bit (by decide), hone fun _ _ => .giveSlots rfl _, hone fun _ _ => .raise _ 0,
    hone fun _ _ => .raise _ 0,
    hone fun _ _ => .acknowledge rfl _, hone fun s val => setEecd_effect s _ val,
    hone fun _ val => .control rfl val,
    hone fun _ _ => .store (by decide) _, hrange (by decide), hrange (by decide),
    hrange (by decide),
    hrange (by decide), hrange (by decide), hrange (by decide), hrange (by decide),
    hacting (by simp),
    by simp⟩

/-- A write to a register that acts on the device alone has one of the effects. -/
theorem writeopOf_effect {index : ℕ} {handler : E1000State → ℕ → UInt32 → E1000State}
    (h : writeopOf index = some (.device handler)) (s : E1000State) (val : UInt32) :
    WriteEffect index s (handler s index val) := by
  obtain ⟨entry, hfind, hop⟩ := Option.map_eq_some_iff.mp h
  have hcovers : entry.Covers index := by simpa using List.find?_some hfind
  exact macregWriteops_effective entry (List.mem_of_find?_eq_some hfind) handler hop s
    index val hcovers

/-- What reading a register can do to the device, with the value that is read. -/
inductive ReadEffect (index : ℕ) (s : E1000State) : UInt32 × E1000State → Prop
  | keep (h : ∀ reg ∈ readCleared, index ≠ reg.index) (value : UInt32) :
    ReadEffect index s (value, s)
  | acknowledge (h : index = MacReg.icr.index) :
      ReadEffect index s (s.macReg MacReg.icr.index, setInterruptCause s 0 0)
  | clear {reg : MacReg} (hreg : reg ∈ readCleared) (h : index = reg.index) :
      ReadEffect index s (s.macReg index, s.setMac index 0)
  | clearBoth {low high : MacReg}
      (hpair : (low, high) ∈ [(MacReg.totl, MacReg.toth), (MacReg.torl, MacReg.torh)])
      (h : index = high.index) :
      ReadEffect index s (s.macReg index, (s.setMac high.index 0).setMac low.index 0)

/-- The handler of an entry has one of the effects on the registers it serves. -/
def ReadEntry.Effective (entry : ReadEntry) : Prop :=
  ∀ s index, entry.first ≤ index → index ≤ entry.last → ReadEffect index s (entry.op s index)

/-- Every handler has one of the effects. -/
theorem macregReadops_effective : ∀ entry ∈ macregReadops, entry.Effective := by
  have hone {reg : MacReg} {op : ReadOp} (h : ∀ s, ReadEffect reg.index s (op s reg.index)) :
      ReadEntry.Effective ⟨reg.index, reg.index, op⟩ := by
    intro s index hfirst hlast
    obtain rfl := Nat.le_antisymm hlast hfirst
    exact h s
  have hget {reg : MacReg} (h : ∀ other ∈ readCleared, reg.index ≠ other.index) :
      (getreg reg).Effective :=
    hone fun _ => .keep h _
  have hclr4 {reg : MacReg} (h : reg ∈ readCleared) :
      ReadEntry.Effective ⟨reg.index, reg.index, macReadClr4⟩ :=
    hone fun _ => .clear h rfl
  have hclr8 (low : MacReg) {high : MacReg}
      (hpair : (low, high) ∈ [(MacReg.totl, MacReg.toth), (MacReg.torl, MacReg.torh)])
      (hnext : low.index = high.index - 1) :
        ReadEntry.Effective ⟨high.index, high.index, macReadClr8⟩ :=
    hone fun s => by
      unfold macReadClr8
      rw [← hnext]
      exact .clearBoth hpair rfl
  have hrange {first last : ℕ} (h : ∀ reg ∈ readCleared, last < reg.index ∨ reg.index < first) :
      ReadEntry.Effective ⟨first, last, macReadreg⟩ := by
    intro s index hfirst hlast
    refine .keep (fun reg hreg hsame => ?_) _
    rcases h reg hreg with hafter | hbefore
    · exact absurd (hsame ▸ hlast) (Nat.not_le.mpr hafter)
    · exact absurd (hsame ▸ hfirst) (Nat.not_le.mpr hbefore)
  simp only [macregReadops, List.forall_mem_cons]
  exact ⟨hget (by decide), hget (by decide), hget (by decide), hget (by decide), hget (by decide),
    hget (by decide), hget (by decide), hget (by decide), hget (by decide), hget (by decide),
    hget (by decide),
    hget (by decide), hget (by decide), hget (by decide), hget (by decide), hget (by decide),
    hget (by decide),
    hget (by decide), hget (by decide), hget (by decide), hget (by decide), hget (by decide),
    hget (by decide),
    hget (by decide), hget (by decide), hget (by decide), hclr8 .totl (by decide) rfl,
    hclr8 .torl (by decide) rfl,
    hclr4 (by decide), hclr4 (by decide), hclr4 (by decide), hclr4 (by decide),
    hone fun _ => .acknowledge rfl,
    hone fun _ => .keep (by decide) _, hone fun _ => .keep (by decide) _, hrange (by decide),
    hrange (by decide),
    hrange (by decide), hrange (by decide), hrange (by decide), hrange (by decide),
    hrange (by decide),
    hrange (by decide), hrange (by decide), by simp⟩

/-- The registers that reading clears can be read. -/
theorem readopOf_readCleared : ∀ reg ∈ readCleared, (readopOf reg.index).isSome = true := by decide

/-- Reading a register has one of the effects. -/
theorem e1000MmioReadl_effect (addr : ℕ) (s : E1000State) :
    ReadEffect (regIndex addr) s (e1000MmioReadl addr s) := by
  unfold e1000MmioReadl
  cases hop : readopOf (regIndex addr) with
  | none =>
    refine .keep (fun reg hreg hsame => ?_) 0
    have hreadable := readopOf_readCleared reg hreg
    rw [← hsame, hop] at hreadable
    cases hreadable
  | some op =>
    obtain ⟨entry, hfind, rfl⟩ := Option.map_eq_some_iff.mp hop
    have hcovers : entry.first ≤ regIndex addr ∧ regIndex addr ≤ entry.last := by
      simpa using List.find?_some hfind
    exact macregReadops_effective entry (List.mem_of_find?_eq_some hfind) s _ hcovers.1 hcovers.2

end VirtualFirmware.Device
