import VirtualFirmware.Network.CardFrame

/-!
# The PHY of the card

The guest reaches the registers of the PHY through `MDIC`: it writes a command there and reads the
answer. A register holds what the last command that may write it has stored, and the answer stays
until the next command.
-/

namespace VirtualFirmware.Network

open Library Device

/-- A command to the PHY. -/
inductive PhyCommand where
  | read (reg : ℕ)
  | write (reg : ℕ) (data : UInt16)
deriving DecidableEq, Repr

/-- The command in a value that is written to `MDIC`. The only PHY has the number one. -/
def phyCommand (val : UInt32) : Option PhyCommand :=
  let reg := ((val &&& 0x001f0000) >>> 16).toNat
  if (val &&& 0x03e00000) >>> 21 ≠ 1 then none
  else if val &&& 0x08000000 ≠ 0 then some (.read reg)
  else if val &&& 0x04000000 ≠ 0 then some (.write reg (val &&& 0xffff).toUInt16)
  else none

/-- What a command stores in a register, if this may be written. -/
def PhyCommand.stores (reg : ℕ) : PhyCommand → Option UInt16
  | .read _ => none
  | .write addr data => if addr = reg ∧ phyRegcap reg &&& 2 ≠ 0 then some data else none

/-- What an event stores in a register of the PHY. -/
def CardEvent.storesPhy (reg : ℕ) : CardEvent → Option UInt16
  | .write addr val =>
    if regIndex addr = MacReg.mdic.index then (phyCommand val).bind (PhyCommand.stores reg)
    else none
  | _ => none

/-- A register of the PHY after a run: it holds what was stored last. -/
def phyAfter (reg : ℕ) (data : UInt16) (events : List CardEvent) : UInt16 :=
  events.foldl (fun data event => (event.storesPhy reg).getD data) data

/-- A register that may not be written holds what it held before. -/
theorem phyAfter_readOnly {reg : ℕ} (h : phyRegcap reg &&& 2 = 0) (data : UInt16)
    (events : List CardEvent) :
    phyAfter reg data events = data := by
  have hcommand (command : PhyCommand) : command.stores reg = none := by
    cases command with
    | read _ => rfl
    | write addr value => exact if_neg fun hwritable => hwritable.2 h
  have hstores (event : CardEvent) : event.storesPhy reg = none := by
    cases event with
    | write addr val =>
      unfold CardEvent.storesPhy
      dsimp only
      split
      · cases phyCommand val with
        | none => rfl
        | some command => exact hcommand command
      · rfl
    | _ => rfl
  unfold phyAfter
  induction events with
  | nil => rfl
  | cons event events ih =>
    rw [List.foldl_cons, hstores event]
    exact ih

section Steps

variable {n n' : Nic}

/-- The event writes to `MDIC`. -/
def CardEvent.Commands : CardEvent → Prop
  | .write addr _ => regIndex addr = MacReg.mdic.index
  | _ => False

/-- Other events leave the PHY and the answer. -/
theorem CardStep.samePhy {fuel : ℕ} {event : CardEvent} (h : CardStep fuel n event n')
    (hevent : ¬ event.Commands) :
    SamePhy n.dev n'.dev := by
  cases h with
  | write hwrite hreturns => exact (cardWrite_untouched hwrite hreturns).1 hevent
  | read addr => exact (readEffect_untouched (e1000MmioReadl_effect addr n.dev)).phy
  | packet hreceive => exact (reception_untouched (e1000Receive_reception fuel _ n _ hreceive)).phy
  | link down => exact (linkStatus_untouched down n.dev).phy

/-- A write to `MDIC` is one of `set_mdic`. -/
theorem CardStep.mdic {fuel addr : ℕ} {val : UInt32} (h : CardStep fuel n (.write addr val) n')
    (hindex : regIndex addr = MacReg.mdic.index) : n'.dev = setMdic n.dev (regIndex addr) val := by
  have hop : writeopOf (regIndex addr) = some (.device setMdic) := by
    rw [hindex]
    rfl
  cases h with
  | write hwrite hreturns =>
    rw [cardWrite_device hop hwrite hreturns]
    rfl

end Steps

/-- `set_mdic` carries the command out. -/
theorem setMdic_phyReg (s : E1000State) (index : ℕ) (val : UInt32) (reg : ℕ) :
    (setMdic s index val).phyReg reg =
      ((phyCommand val).bind (PhyCommand.stores reg)).getD (s.phyReg reg) := by
  unfold setMdic phyCommand
  dsimp only
  split
  · rfl
  · split
    · split <;> rfl
    · split
      · generalize ((val &&& 0x001f0000) >>> 16).toNat = addr
        change _ = (PhyCommand.stores reg (.write addr _)).getD _
        unfold PhyCommand.stores
        dsimp only
        split
        · rename_i hprotected
          rw [if_neg fun hwritable => hwritable.2 (hwritable.1 ▸ hprotected)]
          rfl
        · rename_i hwritable
          change setReg s.phyReg addr _ reg = _
          by_cases hreg : addr = reg
          · subst hreg
            rw [if_pos ⟨rfl, hwritable⟩, setReg_self]
            rfl
          · rw [if_neg fun hboth => hreg hboth.1, setReg_of_ne _ _ (Ne.symm hreg)]
            rfl
      · rfl

/-- `set_mdic` answers a command that reads. -/
theorem setMdic_answer (s : E1000State) (index : ℕ) {val : UInt32} {reg : ℕ}
    (h : phyCommand val = some (.read reg)) (hreadable : phyRegcap reg &&& 1 ≠ 0) :
    (setMdic s index val).macReg MacReg.mdic.index &&& 0xffff = (s.phyReg reg).toUInt32 := by
  have hwhole : 0xffff &&& (0xffff : UInt32) = 0xffff := rfl
  have hdata : (s.phyReg reg).toUInt32 &&& 0xffff = (s.phyReg reg).toUInt32 := by
    apply UInt32.toNat_inj.mp
    rw [UInt32.toNat_and, UInt16.toNat_toUInt32]
    change (s.phyReg reg).toNat &&& 2 ^ 16 - 1 = _
    rw [Nat.and_two_pow_sub_one_eq_mod, Nat.mod_eq_of_lt (s.phyReg reg).toNat_lt]
  have hanswer :
      ((val ^^^ (val &&& 0xffff)) ||| (s.phyReg reg).toUInt32 ||| 0x10000000) &&& 0xffff =
        (s.phyReg reg).toUInt32 := by
    rw [or_and_mask, or_and_mask, xor_and_mask, UInt32.and_assoc, hwhole, UInt32.xor_self,
      UInt32.zero_or, hdata]
    exact UInt32.or_zero
  unfold phyCommand at h
  dsimp only at h
  split at h
  · cases h
  · rename_i hphy
    split at h
    · rename_i hread
      cases h
      have hmdic : (setMdic s index val).macReg MacReg.mdic.index =
          (val ^^^ (val &&& 0xffff)) |||
            (s.phyReg ((val &&& (0x001f0000 : UInt32)) >>> (16 : UInt32)).toNat).toUInt32 |||
            0x10000000 := by
        unfold setMdic
        dsimp only
        rw [if_neg hphy, if_pos hread, if_neg hreadable]
        exact (setInterruptCause_of_ne _ _ (by decide) (by decide)).trans
          (E1000State.setMac_self _ _ _)
      rw [hmdic, hanswer]
    · split at h <;> cases h

/-- A step stores in a register of the PHY what its event does. -/
theorem CardStep.phyReg {fuel : ℕ} {n n' : Nic} {event : CardEvent}
    (h : CardStep fuel n event n') (reg : ℕ) :
    n'.dev.phyReg reg = (event.storesPhy reg).getD (n.dev.phyReg reg) := by
  by_cases hevent : event.Commands
  · cases event with
    | write addr val =>
      have hindex : regIndex addr = MacReg.mdic.index := hevent
      rw [h.mdic hindex, setMdic_phyReg, CardEvent.storesPhy, if_pos hindex]
    | read _ _ => exact hevent.elim
    | packet _ _ => exact hevent.elim
    | link _ => exact hevent.elim
  · rw [(h.samePhy hevent).regs]
    cases event with
    | write addr val =>
      have hindex : ¬ regIndex addr = MacReg.mdic.index := hevent
      rw [CardEvent.storesPhy, if_neg hindex, Option.getD_none]
    | read _ _ => rfl
    | packet _ _ => rfl
    | link _ => rfl

/-- A run stores in a register of the PHY what its events do. -/
theorem CardRun.phyReg {fuel : ℕ} {n n' : Nic} {events : List CardEvent}
    (run : CardRun fuel n events n') (reg : ℕ) :
    n'.dev.phyReg reg = phyAfter reg (n.dev.phyReg reg) events :=
  run.simulates (fun data event => (event.storesPhy reg).getD data)
    (fun data s => s.dev.phyReg reg = data)
    (fun data s event s' hstep hdata => by rw [hstep.phyReg reg, hdata]) rfl

/-- Without a command the PHY and the answer stay. -/
theorem CardRun.samePhy {fuel : ℕ} {n n' : Nic} {events : List CardEvent}
    (run : CardRun fuel n events n') (h : ∀ event ∈ events, ¬ event.Commands) :
    SamePhy n.dev n'.dev :=
  run.invariant_of_events (¬ ·.Commands) (fun s => SamePhy n.dev s.dev)
    (fun _ _ _ hstep hevent hs => ⟨(hstep.samePhy hevent).regs.trans hs.regs,
      (hstep.samePhy hevent).mdic.trans hs.mdic⟩) h ⟨rfl, rfl⟩

/-- Whatever happens to the card, the answer to a command that reads a register of the PHY is what
was stored there last, and it stays in `MDIC` until the next command. Every register then holds what
was stored in it before the command, and one that may not be written what it held at first. -/
theorem cardRun_phy {fuel : ℕ} {n asked answered n' : Nic} {events later : List CardEvent}
    (run : CardRun fuel n events asked) {addr : ℕ} {val : UInt32}
    (hstep : CardStep fuel asked (.write addr val) answered)
    (hindex : regIndex addr = MacReg.mdic.index) {reg : ℕ}
    (hcommand : phyCommand val = some (.read reg)) (hreadable : phyRegcap reg &&& 1 ≠ 0)
    (rest : CardRun fuel answered later n') (hlater : ∀ event ∈ later, ¬ event.Commands) {addr' : ℕ}
    (hread : regIndex addr' = MacReg.mdic.index) :
    (e1000MmioReadl addr' n'.dev).1 &&& 0xffff =
        (phyAfter reg (n.dev.phyReg reg) events).toUInt32 ∧
      ∀ other, n'.dev.phyReg other = phyAfter other (n.dev.phyReg other) events ∧
        (phyRegcap other &&& 2 = 0 → n'.dev.phyReg other = n.dev.phyReg other) := by
  have hkept := rest.samePhy hlater
  have hanswer : answered.dev.macReg MacReg.mdic.index &&& 0xffff =
      (asked.dev.phyReg reg).toUInt32 := by
    rw [hstep.mdic hindex]
    exact setMdic_answer asked.dev (regIndex addr) hcommand hreadable
  have hop : readopOf (regIndex addr') = some macReadreg := by
    rw [hread]
    rfl
  have hvalue : (e1000MmioReadl addr' n'.dev).1 = n'.dev.macReg MacReg.mdic.index := by
    unfold e1000MmioReadl
    rw [hop, hread]
    rfl
  -- The command that reads stores nothing.
  have hstores (other : ℕ) : n'.dev.phyReg other = phyAfter other (n.dev.phyReg other) events := by
    rw [hkept.regs, hstep.mdic hindex, setMdic_phyReg, hcommand, ← run.phyReg other]
    rfl
  refine ⟨by rw [hvalue, hkept.mdic, hanswer, run.phyReg reg], fun other => ⟨hstores other, ?_⟩⟩
  intro hprotected
  rw [hstores other, phyAfter_readOnly hprotected]

/-- The card after the guest wrote to register 4 of the PHY. -/
def phyWritten : Nic := (default : Nic).mapDev fun s => setMdic s (regIndex 0x20) 0x04241234

/-- The card after the guest asked for the register. -/
def phyAsked : Nic := phyWritten.mapDev fun s => setMdic s (regIndex 0x20) 0x08240000

/-- The guest writes to register 4 and reads it, and the link goes down before it takes the answer.
The register still holds what was written, and register 2 what it held. -/
theorem cardRun_phy_written :
    CardRun 0 default [.write 0x20 0x04241234] phyWritten ∧
      (e1000MmioReadl 0x20 (phyAsked.mapDev (e1000SetLinkStatus true)).dev).1 &&& 0xffff = 0x1234 ∧
      (phyAsked.mapDev (e1000SetLinkStatus true)).dev.phyReg 4 = 0x1234 ∧
      (phyAsked.mapDev (e1000SetLinkStatus true)).dev.phyReg 2 = (default : Nic).dev.phyReg 2 := by
  have run : CardRun 0 default [.write 0x20 0x04241234] phyWritten :=
    .next .start (.write rfl (.pure _))
  have hstep : CardStep 0 phyWritten (.write 0x20 0x08240000) phyAsked := .write rfl (.pure _)
  have rest : CardRun 0 phyAsked [.link true] (phyAsked.mapDev (e1000SetLinkStatus true)) :=
    .next .start (.link true)
  have hlater : ∀ event ∈ [CardEvent.link true], ¬ event.Commands := by simp [CardEvent.Commands]
  have hcommand : phyCommand 0x08240000 = some (.read 4) := by decide
  have hindex : regIndex 0x20 = MacReg.mdic.index := rfl
  obtain ⟨hanswer, hregs⟩ := cardRun_phy run hstep rfl hcommand (by decide) rest hlater hindex
  exact ⟨run, hanswer, (hregs 4).1, (hregs 2).2 (by decide)⟩

end VirtualFirmware.Network
