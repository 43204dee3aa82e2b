import VirtualFirmware.Device.Vmstate
import VirtualFirmware.Network.Card

/-!
# The interrupts of the card

Whatever reaches the card, the interrupt line is up exactly if a cause is pending that is not
masked. Causes that are pending stay so until the guest reads or writes `ICR`.
-/

namespace VirtualFirmware.Network

open Library Device

/-- `ICS` shows the pending causes, `E1000_ICR_INT_ASSERTED` marks that there are some, and the
interrupt line is up exactly if one of them is not masked. -/
structure Settled (s : E1000State) : Prop where
  shadow : s.macReg MacReg.ics.index = s.macReg MacReg.icr.index
  marked : s.macReg MacReg.icr.index ≠ 0 → Raised s 0x80000000
  line : s.irq = decide (s.macReg MacReg.ims.index &&& s.macReg MacReg.icr.index ≠ 0)

/-- Nothing happened to the interrupts. -/
structure SameInterrupts (s s' : E1000State) : Prop where
  icr : s'.macReg MacReg.icr.index = s.macReg MacReg.icr.index
  ics : s'.macReg MacReg.ics.index = s.macReg MacReg.ics.index
  ims : s'.macReg MacReg.ims.index = s.macReg MacReg.ims.index
  irq : s'.irq = s.irq

/-- Two steps that leave the interrupt registers and the line leave them together. -/
theorem SameInterrupts.trans {s s' s'' : E1000State} (h : SameInterrupts s s')
    (h' : SameInterrupts s' s'') :
    SameInterrupts s s'' :=
  ⟨h'.icr.trans h.icr, h'.ics.trans h.ics, h'.ims.trans h.ims, h'.irq.trans h.irq⟩

/-- The registers of the interrupts. -/
def interruptRegs : List MacReg := [.icr, .ics, .ims]

/-- The register does not belong to the interrupts. -/
def Aside (index : ℕ) : Prop := ∀ reg ∈ interruptRegs, reg.index ≠ index

instance (index : ℕ) : Decidable (Aside index) :=
  inferInstanceAs (Decidable (∀ reg ∈ interruptRegs, reg.index ≠ index))

/-- An assignment to another register leaves the interrupts. -/
theorem sameInterrupts_setMac (s : E1000State) {index : ℕ} (h : Aside index) (value : UInt32) :
    SameInterrupts s (s.setMac index value) :=
  ⟨s.setMac_of_ne value (h .icr (by decide)), s.setMac_of_ne value (h .ics (by decide)),
    s.setMac_of_ne value (h .ims (by decide)), rfl⟩

/-- What can happen to the interrupts in one step: nothing, further causes are raised, or, if that
is allowed, the pending causes are acknowledged. -/
inductive InterruptStep (allowed : Prop) (s : E1000State) : E1000State → Prop
  | same {s' : E1000State} (h : SameInterrupts s s') : InterruptStep allowed s s'
  | raised {s' : E1000State} (h : s'.macReg MacReg.icr.index = s.macReg MacReg.icr.index)
      (causes : UInt32) :
      InterruptStep allowed s (setIcs s' 0 causes)
  | acknowledged (h : allowed) (causes : UInt32) :
      InterruptStep allowed s (setInterruptCause s 0 causes)

/-- Setting causes settles the interrupts. -/
theorem settled_setInterruptCause (s : E1000State) (causes : UInt32) :
    Settled (setInterruptCause s 0 causes) := by
  have hicr := setInterruptCause_icr s causes
  have hims :=
    setInterruptCause_of_ne s causes (by decide : MacReg.ims.index ≠ MacReg.icr.index) (by decide)
  refine ⟨?_, fun hpending => ?_, ?_⟩
  · rw [hicr]
    exact ((s.setMac MacReg.icr.index (asserted causes)).setMac_self MacReg.ics.index
      (asserted causes))
  · rw [Raised, hicr]
    rw [hicr, ne_eq, asserted_eq_zero] at hpending
    rw [asserted, if_pos hpending, UInt32.or_comm]
    exact and_or_of_and (UInt32.and_self) causes
  · rw [hicr, hims]
    rfl

namespace InterruptStep

variable {allowed : Prop} {s s' : E1000State}

/-- An interrupt step leaves the line as the pending causes and the mask say. -/
theorem settled (h : InterruptStep allowed s s') (hs : Settled s) : Settled s' := by
  cases h with
  | same h =>
    refine ⟨by rw [h.icr, h.ics, hs.shadow], fun hpending => ?_,
      by rw [h.icr, h.ims, h.irq, hs.line]⟩
    rw [Raised, h.icr]
    exact hs.marked (h.icr ▸ hpending)
  | raised _ causes => exact settled_setInterruptCause _ _
  | acknowledged _ causes => exact settled_setInterruptCause _ _

/-- Pending causes stay pending unless they may be acknowledged. -/
theorem keeps_raised (h : InterruptStep allowed s s') (hallowed : ¬ allowed) {causes : UInt32}
    (hs : Raised s causes) : Raised s' causes := by
  cases h with
  | same h =>
    rw [Raised, h.icr]
    exact hs
  | raised h more =>
    refine Raised.setIcs ?_ more
    rw [Raised, h]
    exact hs
  | acknowledged h _ => exact absurd h hallowed

end InterruptStep

section Steps

variable {n n' : Nic}

/-- A write to a register of the device is an interrupt step that clears causes only at `ICR`. -/
theorem writeEffect_interrupts {index : ℕ} {s s' : E1000State} (h : WriteEffect index s s') :
    InterruptStep (index = MacReg.icr.index) s s' := by
  have htied : interruptRegs ⊆ tiedRegs := by decide
  cases h with
  | store hloose value =>
    exact .same (sameInterrupts_setMac s (fun reg hreg => (hloose reg (htied hreg)).symm) value)
  | giveSlots hindex value =>
    subst hindex
    obtain ⟨hicr, hics, hims, -⟩ :=
      sameInterrupts_setMac s (by decide : Aside MacReg.rdt.index) value
    exact .same ⟨hicr, hics, hims, rfl⟩
  | raise mask causes =>
    exact .raised (s.setMac_of_ne mask (by decide : MacReg.icr.index ≠ MacReg.ims.index)) causes
  | acknowledge hindex causes => exact .acknowledged hindex causes
  | @manage hindex value regs hregs =>
    have hicr : ({ s with phyReg := regs }.setMac MacReg.mdic.index value).macReg MacReg.icr.index =
        s.macReg MacReg.icr.index :=
          (sameInterrupts_setMac s (by decide : Aside MacReg.mdic.index) value).icr
    exact .raised hicr 0x200
  | serial eecd => exact .same ⟨rfl, rfl, rfl, rfl⟩
  | control hindex value =>
    obtain ⟨hicr, hics, hims, -⟩ :=
      sameInterrupts_setMac s (by decide : Aside MacReg.rctl.index) value
    exact .same ⟨hicr, hics, hims, rfl⟩

/-- A read of a register is an interrupt step that clears causes only at `ICR`. -/
theorem readEffect_interrupts {index : ℕ} {s : E1000State} {result : UInt32 × E1000State}
    (h : ReadEffect index s result) : InterruptStep (index = MacReg.icr.index) s result.2 := by
  have hcleared : ∀ reg ∈ readCleared, Aside reg.index := by decide
  have hpairs : ∀ pair ∈ [(MacReg.totl, MacReg.toth), (MacReg.torl, MacReg.torh)],
      Aside pair.1.index ∧ Aside pair.2.index := by decide
  cases h with
  | keep _ value => exact .same ⟨rfl, rfl, rfl, rfl⟩
  | acknowledge hindex => exact .acknowledged hindex 0
  | @clear reg hreg hindex =>
    subst hindex
    exact .same (sameInterrupts_setMac s (hcleared reg hreg) 0)
  | @clearBoth low high hpair hindex =>
    obtain ⟨hlow, hhigh⟩ := hpairs _ hpair
    exact .same ((sameInterrupts_setMac s hhigh 0).trans (sameInterrupts_setMac _ hlow 0))

/-- Work on the transmit ring leaves the interrupts alone. -/
theorem ringWork_interrupts (h : RingWork n n') : SameInterrupts n.dev n'.dev :=
  ⟨h.macReg (by decide) (by decide), h.macReg (by decide) (by decide),
    h.macReg (by decide) (by decide), by conv_rhs => rw [← h.dev]⟩

/-- A write to a register of the card is an interrupt step that clears causes only at `ICR`. -/
theorem cardWritten_interrupts {index : ℕ} {val : UInt32} (h : CardWritten index val n n') :
    InterruptStep (index = MacReg.icr.index) n.dev n'.dev := by
  cases h with
  | ignored => exact .same ⟨rfl, rfl, rfl, rfl⟩
  | effect heffect => exact writeEffect_interrupts heffect
  | @transmit tail _ hindex hwork =>
    have hregs : SameInterrupts n.dev ((n.mapDev (·.setMac index val)).setReg .tdt tail).dev := by
      have haside : Aside index := by rcases hindex with rfl | rfl <;> decide
      exact (sameInterrupts_setMac n.dev haside val).trans
        (sameInterrupts_setMac _ (by decide : Aside MacReg.tdt.index) tail)
    rcases hwork with rfl | ⟨m, causes, hring, rfl⟩
    · exact .same hregs
    · exact .raised (hregs.trans (ringWork_interrupts hring)).icr causes
  | @exchange hindex m hwritten =>
    obtain ⟨hicr, hics, hims, hirq⟩ :=
      (sameInterrupts_setMac n.dev (by decide : Aside pfAtqt) val).trans
      (sameInterrupts_setMac _ (by decide : Aside pfAtqh)
        (nextHead (n.dev.macReg pfAtqh) n.dev.ring.ringLen))
    refine .same ?_
    change SameInterrupts n.dev m.dev
    rw [hwritten.dev]
    exact ⟨hicr, hics, hims, hirq⟩

/-- Filling slots leaves the interrupts alone. -/
theorem fillWork_interrupts {packet : RxPacket} (h : FillWork packet n n') :
    SameInterrupts n.dev n'.dev := by
  induction h with
  | start => exact ⟨rfl, rfl, rfl, rfl⟩
  | @fill m _ ih =>
    exact ih.trans ⟨fillSlot_macReg packet m (by decide), fillSlot_macReg packet m (by decide),
      fillSlot_macReg packet m (by decide), rfl⟩

/-- A packet that arrives is an interrupt step that clears no cause. -/
theorem reception_interrupts {buf : List UInt8} {result : Nic × Option ℕ}
    (h : Reception buf n result) :
    InterruptStep False n.dev result.1.dev := by
  cases h with
  | refused size _ => exact .same ⟨rfl, rfl, rfl, rfl⟩
  | overrun hwork => exact .raised (fillWork_interrupts hwork).icr _
  | @stored m _ hwork =>
    have hcounted := countReceived_macReg (rxPacket n.dev (padded buf)).bytes.length m.dev
      (by decide : ∀ reg ∈ receivedCounters, MacReg.icr.index ≠ reg.index)
    exact .raised (hcounted.trans (fillWork_interrupts hwork).icr) _

/-- A change of the link is an interrupt step that clears no cause. -/
theorem linkStatus_interrupts (down : Bool) (s : E1000State) :
    InterruptStep False s (e1000SetLinkStatus down s) := by
  have hstatus (value : UInt32) :=
    sameInterrupts_setMac s (by decide : Aside MacReg.status.index) value
  unfold e1000SetLinkStatus
  dsimp only
  generalize (if down = true then _ else _ : UInt32) = value
  split
  · exact .raised (hstatus value).icr 4
  · exact .same (hstatus value)

/-- An event acknowledges causes only if it is an access to `ICR`. -/
theorem CardStep.interrupts {fuel : ℕ} {event : CardEvent} (h : CardStep fuel n event n') :
    InterruptStep (event.AtReg .icr) n.dev n'.dev := by
  cases h with
  | write hwrite hreturns => exact cardWritten_interrupts (cardWrite_written hwrite hreturns)
  | read addr => exact readEffect_interrupts (e1000MmioReadl_effect addr n.dev)
  | packet hreceive => exact reception_interrupts (e1000Receive_reception fuel _ n _ hreceive)
  | link down => exact linkStatus_interrupts down n.dev

end Steps

/-- In every run the interrupt line is up exactly if a cause is pending that is not masked. No cause
is lost before the guest accesses `ICR`, and reading `ICR` returns the pending causes and lowers the
line. -/
theorem cardRun_interrupts {fuel : ℕ} {n n' : Nic} {events : List CardEvent}
    (run : CardRun fuel n events n') (hsettled : Settled n.dev) :
    Settled n'.dev ∧
      ((∀ event ∈ events, ¬ event.AtReg .icr) → ∀ causes, Raised n.dev causes →
        Raised n'.dev causes) ∧
      ∀ addr, regIndex addr = MacReg.icr.index →
        (e1000MmioReadl addr n'.dev).1 = n'.reg .icr ∧
          (e1000MmioReadl addr n'.dev).2.irq = false := by
  refine ⟨?_, fun hevents causes hraised => ?_, fun addr haddr => ?_⟩
  · have hkeeps (s : Nic) (event : CardEvent) (s' : Nic) (hstep : CardStep fuel s event s') :
        Settled s.dev → Settled s'.dev := hstep.interrupts.settled
    exact run.invariant (fun s => Settled s.dev) hkeeps hsettled
  · have hkeeps (s : Nic) (event : CardEvent) (s' : Nic) (hstep : CardStep fuel s event s')
        (hicr : ¬ event.AtReg .icr) : Raised s.dev causes → Raised s'.dev causes :=
      hstep.interrupts.keeps_raised hicr
    exact run.invariant_of_events _ (fun s => Raised s.dev causes) hkeeps hevents hraised
  · have hop : readopOf (regIndex addr) = some macIcrRead := by
      rw [haddr]
      rfl
    have hread : e1000MmioReadl addr n'.dev = macIcrRead n'.dev (regIndex addr) := by
      unfold e1000MmioReadl
      rw [hop]
    rw [hread]
    refine ⟨rfl, ?_⟩
    change decide (n'.dev.macReg MacReg.ims.index &&& 0 ≠ 0) = false
    rw [UInt32.and_zero]
    rfl

/-- A card after a reset. -/
def resetCard : Nic := (default : Nic).mapDev e1000Reset

/-- The card after the guest unmasked changes of the link and the link went down. -/
def linkDownCard : Nic :=
  (resetCard.mapDev (setIms · MacReg.ims.index 4)).mapDev (e1000SetLinkStatus true)

/-- The guest unmasks changes of the link, the link goes down, and the line is up. -/
theorem cardRun_interrupts_linkDownCard :
    CardRun 0 resetCard [.write 0xD0 4, .link true] linkDownCard ∧
      Settled linkDownCard.dev ∧ linkDownCard.dev.irq = true := by
  have hsettled : Settled resetCard.dev := ⟨rfl, fun hpending => absurd rfl hpending, rfl⟩
  have run : CardRun 0 resetCard [.write 0xD0 4, .link true] linkDownCard :=
    .next (.next .start (.write rfl (.pure _))) (.link true)
  exact ⟨run, (cardRun_interrupts run hsettled).1, rfl⟩

end VirtualFirmware.Network
