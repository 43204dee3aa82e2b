import VirtualFirmware.Device.Interrupts
import VirtualFirmware.Library.RingWalks
import VirtualFirmware.Network.Receive
import VirtualFirmware.Network.TransmitRing

/-!
# The receive ring as a queue

The driver gives slots of the receive ring to the device by writing the tail. The device uses them
in order, one for each packet it takes, and refuses packets when none is left. A tail that is
written equal to the head gives the whole ring.
-/

namespace VirtualFirmware.Network

open Library Device

/-- The head of the receive ring. -/
def rxHead (n : Nic) : ℕ := (n.reg .rdh).toNat

/-- The tail of the receive ring. -/
def rxTail (n : Nic) : ℕ := (n.reg .rdt).toNat

/-- The number of slots of the receive ring. -/
def rxSlots (n : Nic) : ℕ := slotCount (n.reg .rdlen)

/-- The slots that the device may use, in order. -/
def rxGiven (n : Nic) : List ℕ :=
  if rxHead n = rxTail n then if n.dev.checkRxov then [] else Ring.around (rxSlots n) (rxHead n)
  else Ring.between (rxSlots n) (rxHead n) (rxTail n)

/-- Head and tail are in the ring, which has more than one slot. -/
structure RxReady (n : Nic) : Prop where
  head : rxHead n < rxSlots n
  tail : rxTail n < rxSlots n
  two : 2 ≤ rxSlots n
  slots : rxSlots n ≤ 2 ^ 16

/-- The ring is not empty. -/
theorem RxReady.pos {n : Nic} (h : RxReady n) : 0 < rxSlots n := (Nat.zero_le _).trans_lt h.head

/-- The registers that count what was received. -/
def receivedCounters : List MacReg := [.gprc, .tpr, .torl, .torh]

/-- The registers that receiving a packet writes. -/
def rxWritten : List MacReg := [.rdh, .gprc, .tpr, .torl, .torh, .icr, .ics]

/-- The register with this index is not written. -/
def RxUnwritten (index : ℕ) : Prop := ∀ reg ∈ rxWritten, index ≠ reg.index

instance (index : ℕ) : Decidable (RxUnwritten index) :=
  inferInstanceAs (Decidable (∀ reg ∈ rxWritten, index ≠ reg.index))

/-- Everything but guest RAM, the registers that are written, the interrupt line and `check_rxov` is
as before. -/
structure RxKept (n n' : Nic) : Prop where
  regs : ∀ index, RxUnwritten index → n'.dev.macReg index = n.dev.macReg index
  dev : { n'.dev with macReg := n.dev.macReg, checkRxov := n.dev.checkRxov, irq := n.dev.irq } =
    n.dev
  rest : { n' with dev := n.dev, ram := n.ram } = n

namespace RxKept

variable {n n' n'' : Nic}

/-- A card keeps everything of itself. -/
theorem refl (n : Nic) : RxKept n n := ⟨fun _ _ => rfl, rfl, rfl⟩

/-- Two steps that keep everything but the receive state keep it together. -/
theorem trans (h : RxKept n n') (h' : RxKept n' n'') : RxKept n n'' where
  regs index hindex := (h'.regs index hindex).trans (h.regs index hindex)
  dev := by rw [← h.dev, ← h'.dev]
  rest := by rw [← h.rest, ← h'.rest]

/-- A register that is not written is as before. -/
theorem reg (h : RxKept n n') {reg : MacReg} (hreg : RxUnwritten reg.index) :
    n'.reg reg = n.reg reg :=
  h.regs _ hreg

/-- The size of the buffers is as before. -/
theorem rxbufSize (h : RxKept n n') : n'.dev.rxbufSize = n.dev.rxbufSize := by
  have hdev := congrArg E1000State.rxbufSize h.dev
  exact hdev

end RxKept

/-- Raising interrupts writes the interrupt registers. -/
theorem raise_kept (n : Nic) (causes : UInt32) : RxKept n (n.raise causes) where
  regs index hindex :=
    setInterruptCause_of_ne _ _ (hindex .icr (by decide)) (hindex .ics (by decide))
  dev := rfl
  rest := rfl

/-- Filling a slot writes one register. -/
theorem fillSlot_macReg (packet : RxPacket) (n : Nic) {index : ℕ} (h : index ≠ MacReg.rdh.index) :
    (fillSlot packet n).dev.macReg index = n.dev.macReg index :=
  E1000State.setMac_of_ne _ _ h

/-- Filling a slot moves the head. -/
theorem fillSlot_kept (packet : RxPacket) (n : Nic) : RxKept n (fillSlot packet n) where
  regs index hindex := fillSlot_macReg packet n (hindex .rdh (by decide))
  dev := rfl
  rest := rfl

/-- Counting a packet writes the statistics. -/
theorem countReceived_macReg (size : ℕ) (s : E1000State) {index : ℕ}
    (h : ∀ reg ∈ receivedCounters, index ≠ reg.index) :
    (countReceived size s).macReg index = s.macReg index := by
  simp only [receivedCounters, List.forall_mem_cons] at h
  obtain ⟨hgprc, htpr, htorl, htorh, -⟩ := h
  unfold countReceived
  dsimp only
  split <;> simp only [E1000State.setMac_of_ne, ne_eq, hgprc, htpr, htorl, htorh, not_false_eq_true]

/-- Counting a packet changes registers only. -/
theorem countReceived_dev (size : ℕ) (s : E1000State) :
    { countReceived size s with macReg := s.macReg } = s := by
  unfold countReceived
  dsimp only
  split <;> rfl

/-- The end of a reception writes the statistics and the interrupt registers. -/
theorem received_kept (size : ℕ) (n : Nic) : RxKept n (received size n) := by
  have hcounted : RxKept n (n.mapDev (countReceived size)) := by
    have hcounters : receivedCounters ⊆ rxWritten := by decide
    refine ⟨fun index hindex => countReceived_macReg size n.dev fun reg hreg => hindex reg
      (hcounters hreg), ?_, rfl⟩
    exact congrArg (fun s : E1000State => { s with checkRxov := n.dev.checkRxov, irq := n.dev.irq })
      (countReceived_dev size n.dev)
  exact hcounted.trans (raise_kept _ _)

/-- The head and `check_rxov` at the end of a reception. -/
theorem received_ring (size : ℕ) (n : Nic) :
    (received size n).reg .rdh = n.reg .rdh ∧ (received size n).dev.checkRxov =
      n.dev.checkRxov := by
  have hcheck : (countReceived size n.dev).checkRxov = n.dev.checkRxov := by
    conv_rhs => rw [← countReceived_dev size n.dev]
  have hhead : (countReceived size n.dev).macReg MacReg.rdh.index = n.dev.macReg MacReg.rdh.index :=
    countReceived_macReg size n.dev (by decide)
  exact ⟨(setInterruptCause_of_ne _ _ (by decide) (by decide)).trans hhead, hcheck⟩

/-- The packet is reported at the end of a reception, and pending causes stay. -/
theorem received_raised (size : ℕ) (n : Nic) :
    Raised (received size n).dev 0x80 ∧ ∀ causes, Raised n.dev causes →
      Raised (received size n).dev causes := by
  have hcause (s : E1000State) : 0x80 &&& receivedCause s = 0x80 := by
    unfold receivedCause
    dsimp only
    generalize (if (_ : UInt32) < _ then _ else _ : UInt32) = rdt
    split <;> decide
  have hicr : (countReceived size n.dev).macReg MacReg.icr.index = n.dev.macReg MacReg.icr.index :=
    countReceived_macReg size n.dev (by decide)
  refine ⟨raised_setIcs (hcause _) _, fun causes h => Raised.setIcs ?_ _⟩
  change _ &&& (countReceived size n.dev).macReg MacReg.icr.index = _
  rw [hicr]
  exact h

/-- The slots that are given depend on the ring's registers and `check_rxov`. -/
theorem rxGiven_congr {n n' : Nic} (h : RxKept n n') (hhead : n'.reg .rdh = n.reg .rdh)
    (hcheck : n'.dev.checkRxov = n.dev.checkRxov) : rxGiven n' = rxGiven n := by
  unfold rxGiven rxHead rxTail rxSlots
  rw [hhead, hcheck, h.reg (by decide : RxUnwritten MacReg.rdt.index),
    h.reg (by decide : RxUnwritten MacReg.rdlen.index)]

/-- The ring stays ready if the head stays. -/
theorem RxReady.congr {n n' : Nic} (hready : RxReady n) (h : RxKept n n')
    (hhead : n'.reg .rdh = n.reg .rdh) :
    RxReady n' := by
  have htail := h.reg (by decide : RxUnwritten MacReg.rdt.index)
  have hslots := h.reg (by decide : RxUnwritten MacReg.rdlen.index)
  constructor
  · rw [rxHead, rxSlots, hhead, hslots]
    exact hready.head
  · rw [rxTail, rxSlots, htail, hslots]
    exact hready.tail
  · rw [rxSlots, hslots]
    exact hready.two
  · rw [rxSlots, hslots]
    exact hready.slots

/-- Filling a slot moves the head to the next one. -/
theorem rxHead_fillSlot (packet : RxPacket) (n : Nic) :
    rxHead (fillSlot packet n) = Ring.next (rxSlots n) (rxHead n) := by
  have hhead : (fillSlot packet n).reg .rdh = nextSlot (n.reg .rdlen) (n.reg .rdh) := by
    change (n.dev.setMac MacReg.rdh.index _).macReg MacReg.rdh.index = _
    rw [E1000State.setMac_self]
    rfl
  rw [rxHead, hhead, nextSlot_toNat]
  rfl

section Filling

variable {n : Nic} (hready : RxReady n) (packet : RxPacket)

/-- The tail and the length of the ring stay when a slot is filled. -/
theorem fillSlot_ring (packet : RxPacket) (n : Nic) :
    rxTail (fillSlot packet n) = rxTail n ∧ rxSlots (fillSlot packet n) = rxSlots n :=
  ⟨congrArg UInt32.toNat ((fillSlot_kept packet n).reg (by decide)),
    congrArg slotCount ((fillSlot_kept packet n).reg (by decide))⟩

include hready

/-- The ring stays ready. -/
theorem RxReady.fillSlot : RxReady (Network.fillSlot packet n) := by
  obtain ⟨htail, hslots⟩ := fillSlot_ring packet n
  have hhead := rxHead_fillSlot packet n
  have hlt : Ring.next (rxSlots n) (rxHead n) < rxSlots n := Ring.next_lt hready.pos _
  exact ⟨by rwa [hhead, hslots], by rw [htail, hslots]; exact hready.tail,
    by rw [hslots]; exact hready.two, by rw [hslots]; exact hready.slots⟩

/-- Filling a slot uses the first one that is given. -/
theorem rxGiven_fillSlot (hgiven : rxGiven n ≠ []) :
    rxGiven n = rxHead n :: rxGiven (Network.fillSlot packet n) := by
  obtain ⟨htail, hslots⟩ := fillSlot_ring packet n
  have hhead := rxHead_fillSlot packet n
  have hcheck : (Network.fillSlot packet n).dev.checkRxov = true := rfl
  -- from the next slot on, head and tail are equal only when nothing is left
  have hrest : rxGiven (Network.fillSlot packet n) =
      Ring.between (rxSlots n) (Ring.next (rxSlots n) (rxHead n)) (rxTail n) := by
    unfold rxGiven
    rw [hhead, htail, hslots, hcheck]
    split
    · rename_i hmeet
      have hzero : Ring.distance (rxSlots n) (rxTail n) (rxTail n) = 0 := by
        rw [Ring.distance, Nat.add_sub_cancel_left, Nat.mod_self]
      rw [if_pos rfl, hmeet, Ring.between, hzero]
      rfl
    · rfl
  rw [hrest]
  unfold rxGiven at hgiven ⊢
  split
  · rename_i hmeet
    rw [if_pos hmeet] at hgiven
    split
    · rename_i hover
      rw [if_pos hover] at hgiven
      exact absurd rfl hgiven
    · rw [Ring.around, hmeet]
  · rename_i hne
    exact Ring.between_cons hready.head hready.tail hne

end Filling

/-- The first slot that is given is at the head. -/
theorem rxHead_of_given {n : Nic} (hready : RxReady n) {slot : ℕ} {rest : List ℕ}
    (hgiven : rxGiven n = slot :: rest) : rxHead n = slot := by
  have hcons := rxGiven_fillSlot hready ⟨[], 0, 0⟩ (hgiven ▸ List.cons_ne_nil slot rest)
  rw [hgiven] at hcons
  exact (List.cons.inj hcons).1.symm

/-- With no slot left and `check_rxov` set, the head is at the tail. -/
theorem rxHead_of_none_given {n : Nic} (hready : RxReady n) (hgiven : rxGiven n = []) :
    rxHead n = rxTail n ∧ n.dev.checkRxov = true := by
  unfold rxGiven at hgiven
  split at hgiven
  · rename_i hmeet
    split at hgiven
    · rename_i hover
      exact ⟨hmeet, hover⟩
    · exact absurd hgiven (List.cons_ne_nil _ _)
  · rename_i hne
    rw [Ring.between_cons hready.head hready.tail hne] at hgiven
    exact absurd hgiven (List.cons_ne_nil _ _)

/-- The slots that are given are slots of the ring. -/
theorem lt_of_mem_rxGiven {n : Nic} (hready : RxReady n) {slot : ℕ} (h : slot ∈ rxGiven n) :
    slot < rxSlots n := by
  unfold rxGiven at h
  split at h
  · split at h
    · exact absurd h List.not_mem_nil
    · obtain rfl | h := List.mem_cons.mp h
      · exact hready.head
      · exact Ring.lt_of_mem_between hready.pos h
  · exact Ring.lt_of_mem_between hready.pos h

/-- No slot is given twice. -/
theorem rxGiven_nodup {n : Nic} (hready : RxReady n) : (rxGiven n).Nodup := by
  unfold rxGiven
  split
  · split
    · exact List.nodup_nil
    · exact Ring.around_nodup hready.pos
  · exact Ring.between_nodup _ _ _

/-- There are no more slots given than the ring has. -/
theorem rxGiven_length_le {n : Nic} (hready : RxReady n) : (rxGiven n).length ≤ rxSlots n := by
  have hsubset : rxGiven n ⊆ List.range (rxSlots n) :=
    fun slot hslot => List.mem_range.mpr (lt_of_mem_rxGiven hready hslot)
  simpa using (rxGiven_nodup hready).length_le_of_subset hsubset

/-- Slots are filled one after another. -/
inductive FillWork (packet : RxPacket) (n : Nic) : Nic → Prop
  | start : FillWork packet n n
  | fill {m : Nic} (work : FillWork packet n m) : FillWork packet n (fillSlot packet m)

/-- What `e1000_receive` does with a packet: it refuses it, finds too few slots, or stores it. -/
inductive Reception (buf : List UInt8) (n : Nic) : Nic × Option ℕ → Prop
  | refused (size : Option ℕ) (h : size = none ∨ receiveFilter n.dev (padded buf) = false) :
      Reception buf n (n, size)
  | overrun {m : Nic} (work : FillWork (rxPacket n.dev (padded buf)) n m) :
      Reception buf n (m.raise 0x40, none)
  | stored {m : Nic} (hfilter : receiveFilter n.dev (padded buf) = true)
      (work : FillWork (rxPacket n.dev (padded buf)) n m) :
      Reception buf n (received (rxPacket n.dev (padded buf)).bytes.length m,
        some (rxPacket n.dev (padded buf)).bytes.length)

/-- A round fills a slot and goes on, or leaves the loop. -/
theorem receiveRound_work (rdhStart : UInt32) (packet : RxPacket) {n : Nic} (m : Nic)
    (h : FillWork packet n m) :
    Ensures (Sum.elim (FillWork packet n) fun s =>
        ∃ last, FillWork packet n last ∧ (s = (last.raise 0x40, false) ∨ s = (last, true)))
      (receiveRound rdhStart packet m) := by
  unfold receiveRound
  dsimp only
  split
  · exact Ensures.ok ⟨m, h, .inl rfl⟩
  · split
    · exact Ensures.ok ⟨_, h.fill, .inl rfl⟩
    · split
      · exact Ensures.ok h.fill
      · exact Ensures.ok ⟨_, h.fill, .inr rfl⟩

/-- `e1000_receive` refuses, drops or stores the packet, as `Reception` says. -/
theorem e1000Receive_reception (fuel : ℕ) (buf : List UInt8) (n : Nic) :
    Ensures (Reception buf n) (e1000Receive fuel buf n) := by
  unfold e1000Receive
  dsimp only
  split
  · exact Ensures.ok (.refused none (.inl rfl))
  · split
    · exact Ensures.ok (.refused none (.inl rfl))
    · split
      · rename_i hrefused
        exact Ensures.ok (.refused _ (.inr (by simpa using hrefused)))
      · rename_i haccepted
        refine (loop_ensures _ _ (receiveRound_work _ _) .start fuel).map ?_
        rintro _ ⟨last, hwork, rfl | rfl⟩
        · exact .overrun hwork
        · exact .stored (by simpa using haccepted) hwork

end VirtualFirmware.Network
