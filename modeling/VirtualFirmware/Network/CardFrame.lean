import VirtualFirmware.Device.Eeprom
import VirtualFirmware.Network.Card

/-!
# What the events leave alone

The PHY is reached through `MDIC` and the EEPROM through `EECD`. No other register, and nothing else
that happens to the card, makes use of them.
-/

namespace VirtualFirmware.Network

open Library Device

/-- The registers of the PHY and `MDIC` are as before. -/
structure SamePhy (s s' : E1000State) : Prop where
  regs : s'.phyReg = s.phyReg
  mdic : s'.macReg MacReg.mdic.index = s.macReg MacReg.mdic.index

/-- The PHY and the EEPROM are as before. -/
structure Untouched (s s' : E1000State) : Prop where
  phy : SamePhy s s'
  eeprom : SameEeprom s s'

namespace Untouched

variable {s s' s'' : E1000State}

/-- A state has the PHY and the EEPROM of itself. -/
theorem refl (s : E1000State) : Untouched s s := ⟨⟨rfl, rfl⟩, ⟨rfl, rfl⟩⟩

/-- Two steps that leave the PHY and the EEPROM leave them together. -/
theorem trans (h : Untouched s s') (h' : Untouched s' s'') : Untouched s s'' where
  phy := ⟨h'.phy.regs.trans h.phy.regs, h'.phy.mdic.trans h.phy.mdic⟩
  eeprom := ⟨h'.eeprom.state.trans h.eeprom.state, h'.eeprom.memory.trans h.eeprom.memory⟩

/-- An assignment to a register other than `MDIC` leaves the PHY and the EEPROM. -/
theorem setMac (s : E1000State) {index : ℕ} (h : MacReg.mdic.index ≠ index) (value : UInt32) :
    Untouched s (s.setMac index value) :=
  ⟨⟨rfl, s.setMac_of_ne value h⟩, ⟨rfl, rfl⟩⟩

/-- Setting interrupt causes leaves the PHY and the EEPROM. -/
theorem setInterruptCause (s : E1000State) (causes : UInt32) :
    Untouched s (setInterruptCause s 0 causes) :=
  ⟨⟨rfl, setInterruptCause_of_ne s causes (by decide) (by decide)⟩, ⟨rfl, rfl⟩⟩

end Untouched

section Steps

variable {n n' : Nic}

/-- A write to another register of the device leaves the PHY. -/
theorem writeEffect_phy {index : ℕ} {s s' : E1000State} (h : WriteEffect index s s')
    (hindex : index ≠ MacReg.mdic.index) : SamePhy s s' := by
  cases h with
  | store _ value => exact (Untouched.setMac s hindex.symm value).phy
  | giveSlots _ value => exact ⟨rfl, (Untouched.setMac s hindex.symm value).phy.mdic⟩
  | raise mask causes =>
    exact ((Untouched.setMac s (by decide : MacReg.mdic.index ≠ MacReg.ims.index) mask).trans
      (Untouched.setInterruptCause _ _)).phy
  | acknowledge _ causes => exact (Untouched.setInterruptCause s causes).phy
  | manage hmdic => exact absurd hmdic hindex
  | serial eecd => exact ⟨rfl, rfl⟩
  | control _ value =>
    exact ⟨rfl,
      (Untouched.setMac s (by decide : MacReg.mdic.index ≠ MacReg.rctl.index) value).phy.mdic⟩

/-- A read of a register leaves the PHY and the EEPROM. -/
theorem readEffect_untouched {index : ℕ} {s : E1000State} {result : UInt32 × E1000State}
    (h : ReadEffect index s result) : Untouched s result.2 := by
  have hcleared : ∀ reg ∈ readCleared, MacReg.mdic.index ≠ reg.index := by decide
  have hpairs : ∀ pair ∈ [(MacReg.totl, MacReg.toth), (MacReg.torl, MacReg.torh)],
      MacReg.mdic.index ≠ pair.1.index ∧ MacReg.mdic.index ≠ pair.2.index := by decide
  cases h with
  | keep _ value => exact .refl s
  | acknowledge _ => exact .setInterruptCause s 0
  | @clear reg hreg hindex =>
    subst hindex
    exact .setMac s (hcleared reg hreg) 0
  | clearBoth hpair _ =>
    obtain ⟨hlow, hhigh⟩ := hpairs _ hpair
    exact (Untouched.setMac s hhigh 0).trans (.setMac _ hlow 0)

/-- Work on the transmit ring leaves the PHY and the EEPROM. -/
theorem ringWork_untouched (h : RingWork n n') : Untouched n.dev n'.dev where
  phy := ⟨by conv_rhs => rw [← h.dev], h.macReg (by decide) (by decide)⟩
  eeprom := by
    rw [← h.dev]
    exact ⟨rfl, rfl⟩

/-- The transmit path, from the write that starts it on. -/
theorem transmit_untouched {fuel index : ℕ} {val : UInt32} (hop : writeopOf index = some .setTctl)
    (h : setTctl fuel index val n = .ok n') : Untouched n.dev n'.dev := by
  have hindex : MacReg.mdic.index ≠ index := by
    rcases writeopOf_setTctl hop with rfl | rfl <;> decide
  have hregs (tail : UInt32) :
      Untouched n.dev ((n.mapDev (·.setMac index val)).setReg .tdt tail).dev :=
    (Untouched.setMac n.dev hindex val).trans
    (.setMac _ (by decide : MacReg.mdic.index ≠ MacReg.tdt.index) tail)
  rcases startXmit_work fuel _ _ h with rfl | ⟨m, causes, hring, rfl⟩
  · exact hregs _
  · exact ((hregs _).trans (ringWork_untouched hring)).trans (.setInterruptCause _ _)

/-- A command of the admin queue leaves the PHY and the EEPROM. -/
theorem exchange_untouched {m m' : Machine} {val : UInt32} (h : TailWritten m val m') :
    Untouched m.dev m'.dev := by
  have hregs := (Untouched.setMac m.dev (by decide : MacReg.mdic.index ≠ pfAtqt) val).trans
    (.setMac _ (by decide : MacReg.mdic.index ≠ pfAtqh)
      (nextHead (m.dev.macReg pfAtqh) m.dev.ring.ringLen))
  rw [h.dev]
  exact ⟨⟨rfl, hregs.phy.mdic⟩, ⟨rfl, rfl⟩⟩

/-- A write to a register leaves what is not reached through it. -/
theorem cardWrite_untouched {fuel addr : ℕ} {val : UInt32}
    {program : Interaction DeviceOp DeviceReply Nic} (h : cardWrite fuel addr val n = .ok program)
    (hreturns : program.Returns n') :
    (regIndex addr ≠ MacReg.mdic.index → SamePhy n.dev n'.dev) ∧
      (regIndex addr ≠ MacReg.eecd.index → SameEeprom n.dev n'.dev) := by
  have hboth (huntouched : Untouched n.dev n'.dev) :
      (regIndex addr ≠ MacReg.mdic.index → SamePhy n.dev n'.dev) ∧
        (regIndex addr ≠ MacReg.eecd.index → SameEeprom n.dev n'.dev) :=
    ⟨fun _ => huntouched.phy, fun _ => huntouched.eeprom⟩
  rcases cardWrite_cases h hreturns with
      rfl | ⟨handler, hop, rfl⟩ | ⟨hop, hxmit⟩ | ⟨-, m, hwritten, rfl⟩
  · exact hboth (.refl _)
  · exact ⟨writeEffect_phy (writeopOf_effect hop n.dev val),
      fun hindex => writeopOf_eeprom hop hindex n.dev val⟩
  · exact hboth (transmit_untouched hop hxmit)
  · exact hboth (exchange_untouched hwritten)

/-- Filling receive slots leaves the PHY and the EEPROM. -/
theorem fillWork_untouched {packet : RxPacket} (h : FillWork packet n n') :
    Untouched n.dev n'.dev := by
  induction h with
  | start => exact .refl _
  | @fill m _ ih => exact ih.trans ⟨⟨rfl, fillSlot_macReg packet m (by decide)⟩, ⟨rfl, rfl⟩⟩

/-- Counting a packet leaves the PHY and the EEPROM. -/
theorem countReceived_untouched (size : ℕ) (s : E1000State) :
    Untouched s (countReceived size s) := by
  have hmdic := countReceived_macReg size s
    (by decide : ∀ reg ∈ receivedCounters, MacReg.mdic.index ≠ reg.index)
  refine ⟨⟨?_, hmdic⟩, ⟨?_, ?_⟩⟩ <;> unfold countReceived <;> dsimp only <;> split <;> rfl

/-- A packet that arrives leaves the PHY and the EEPROM. -/
theorem reception_untouched {buf : List UInt8} {result : Nic × Option ℕ}
    (h : Reception buf n result) :
    Untouched n.dev result.1.dev := by
  cases h with
  | refused size _ => exact .refl _
  | overrun hwork => exact (fillWork_untouched hwork).trans (.setInterruptCause _ _)
  | stored _ hwork =>
    exact ((fillWork_untouched hwork).trans (countReceived_untouched _ _)).trans
      (.setInterruptCause _ _)

/-- A change of the link leaves the PHY and the EEPROM. -/
theorem linkStatus_untouched (down : Bool) (s : E1000State) :
    Untouched s (e1000SetLinkStatus down s) := by
  have hstatus (value : UInt32) :=
    Untouched.setMac s (by decide : MacReg.mdic.index ≠ MacReg.status.index) value
  unfold e1000SetLinkStatus
  dsimp only
  generalize (if down = true then _ else _ : UInt32) = value
  split
  · exact (hstatus value).trans (.setInterruptCause _ _)
  · exact hstatus value

end Steps

end VirtualFirmware.Network
