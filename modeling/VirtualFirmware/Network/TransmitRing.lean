import VirtualFirmware.Library.RingWalks
import VirtualFirmware.Network.TransmitReturns

/-!
# The transmit ring

`start_xmit` takes the slots from the head up to the tail, each once and in order, and returns if
each descriptor fits its packet when its turn comes. If the tail is no slot of the ring it goes
around once and stops where it started. If neither the head nor the tail is a slot of the ring, it
meets neither again and does not return.
-/

namespace VirtualFirmware.Network

open Library Device

/-- The number of slots of the ring: a slot that begins within the length belongs to it, and there
is always one. -/
def slotCount (len : UInt32) : ℕ := max 1 ((len.toNat + 15) / TxDesc.size)

/-- The index behind a slot is the next one of the ring. -/
theorem nextSlot_toNat (len index : UInt32) :
    (nextSlot len index).toNat = Ring.next (slotCount len) index.toNat := by
  have hlen := len.toNat_lt
  have hindex := index.toNat_lt
  have hone : (1 : UInt32).toNat = 1 := rfl
  unfold nextSlot Ring.next slotCount TxDesc.size
  rcases Nat.lt_or_ge (index.toNat + 1) (2 ^ 32) with hsmall | hlarge
  · have hsucc : (index + 1).toNat = index.toNat + 1 := by
      rw [UInt32.toNat_add, hone, Nat.mod_eq_of_lt hsmall]
    by_cases hend : (index.toNat + 1) * 16 ≥ len.toNat
    · rw [hsucc, if_pos hend, if_pos (by omega)]
      rfl
    · rw [hsucc, if_neg hend, if_neg (by omega), hsucc]
  · have hwrap : index + 1 = 0 := by
      apply UInt32.toNat_inj.mp
      rw [UInt32.toNat_add, hone, show index.toNat + 1 = 2 ^ 32 by omega, Nat.mod_self]
      rfl
    rw [hwrap, ite_self, if_pos (by omega)]
    rfl

/-- The registers stay, up to the head of the ring and the statistics. -/
def SameRing (n n' : Nic) : Prop :=
  ∀ reg : MacReg, Uncounted reg.index → reg.index ≠ MacReg.tdh.index → n'.reg reg = n.reg reg

namespace SameRing

/-- A card has the ring of itself. -/
theorem refl (n : Nic) : SameRing n n := fun _ _ _ => rfl

/-- Two changes that leave the ring leave it together. -/
theorem trans {n n' n'' : Nic} (h : SameRing n n') (h' : SameRing n' n'') : SameRing n n'' :=
  fun reg hreg hne => (h' reg hreg hne).trans (h reg hreg hne)

variable {n n' : Nic} (h : SameRing n n')
include h

/-- With the same ring the tail is the same. -/
theorem tdt : n'.reg .tdt = n.reg .tdt := h .tdt (by decide) (by decide)

/-- With the same ring the length is the same. -/
theorem tdlen : n'.reg .tdlen = n.reg .tdlen := h .tdlen (by decide) (by decide)

end SameRing

/-- Taking a slot moves the head to the next one and leaves the ring. -/
theorem takeSlot_moves (fuel : ℕ) (s : Nic × UInt32) (index : UInt32) :
    Ensures (fun s' => SameRing s.1 s'.1 ∧ s'.1.reg .tdh = nextSlot (s.1.reg .tdlen) index)
      (takeSlot fuel s index) := by
  refine (processTxDesc_kept fuel _ s.1).map fun n hkept => ?_
  have hback (reg : MacReg) : (txdescWriteback (txSlot s.1 index) (txDescAt s.1 index) n).reg reg =
      n.reg reg := by
    unfold txdescWriteback
    split <;> rfl
  constructor
  · intro reg hreg hne
    exact (E1000State.setMac_of_ne _ _ hne).trans ((hback reg).trans (hkept.reg hreg))
  · rw [← hkept.reg (by decide : Uncounted MacReg.tdlen.index), ← hback]
    exact E1000State.setMac_self _ _ _

/-- Take several slots, one after another. -/
def takeSlots (fuel : ℕ) (slots : List ℕ) (s : Nic × UInt32) : Except Stop (Nic × UInt32) :=
  slots.foldlM (fun s index => takeSlot fuel s (UInt32.ofNat index)) s

/-- Taking slots takes the first one and then the others. -/
theorem takeSlots_cons (fuel index : ℕ) (rest : List ℕ) (s : Nic × UInt32) :
    takeSlots fuel (index :: rest) s = takeSlot fuel s (UInt32.ofNat index) >>=
      takeSlots fuel rest :=
  List.foldlM_cons

/-- Every descriptor fits its packet when its turn comes. The status of one descriptor may be
written over the next, so that each is looked at behind those before it. -/
def SlotsFit (fuel : ℕ) : List ℕ → Nic × UInt32 → Prop
  | [], _ => True
  | index :: rest, s => (txDescAt s.1 (UInt32.ofNat index)).Fits s.1 ∧
      Ensures (SlotsFit fuel rest) (takeSlot fuel s (UInt32.ofNat index))

instance decidableSlotsFit (fuel : ℕ) : (slots : List ℕ) → DecidablePred (SlotsFit fuel slots)
  | [], _ => .isTrue trivial
  | index :: rest, s =>
    have := decidableSlotsFit fuel rest
    inferInstanceAs (Decidable ((txDescAt s.1 (UInt32.ofNat index)).Fits s.1 ∧
      Ensures (SlotsFit fuel rest) (takeSlot fuel s (UInt32.ofNat index))))

/-- Slots whose descriptors fit are all taken. -/
theorem takeSlots_returns {fuel : ℕ} (hfuel : 2 ^ 16 ≤ fuel) {slots : List ℕ} {s : Nic × UInt32}
    (h : SlotsFit fuel slots s) : ∃ s', takeSlots fuel slots s = .ok s' := by
  induction slots generalizing s with
  | nil => exact ⟨s, rfl⟩
  | cons index rest ih =>
    obtain ⟨n, hprocessed⟩ := processTxDesc_returns hfuel h.1
    obtain ⟨next, htaken⟩ : ∃ next, takeSlot fuel s (UInt32.ofNat index) = .ok next := by
      unfold takeSlot
      dsimp only
      rw [hprocessed]
      exact ⟨_, rfl⟩
    obtain ⟨last, hlast⟩ := ih (h.2 next htaken)
    rw [takeSlots_cons, htaken]
    exact ⟨last, hlast⟩

/-- At the tail the loop ends. -/
theorem xmitLoop_done (fuel rounds : ℕ) (start : UInt32) {s : Nic × UInt32}
    (h : s.1.reg .tdh = s.1.reg .tdt) :
    loop .spent (xmitRound fuel start) (rounds + 1) s = .ok s := by
  have hround : xmitRound fuel start s = .ok (.inr s) := if_pos h
  exact loop_of_inr hround rounds

/-- Elsewhere the slot at the head is taken, and the loop goes on unless the head is at the
start. -/
theorem xmitLoop_takes (fuel rounds : ℕ) (start : UInt32) {s : Nic × UInt32}
    (h : s.1.reg .tdh ≠ s.1.reg .tdt) :
    loop .spent (xmitRound fuel start) (rounds + 1) s =
      takeSlot fuel s (s.1.reg .tdh) >>= fun s' =>
        if s'.1.reg .tdh = start then .ok s' else loop .spent (xmitRound fuel start) rounds s' := by
  have hround : xmitRound fuel start s = (takeSlot fuel s (s.1.reg .tdh)).map fun s' =>
      if s'.1.reg .tdh = start then .inr s' else .inl s' := if_neg h
  rw [loop, hround]
  cases takeSlot fuel s (s.1.reg .tdh) with
  | error stop => rfl
  | ok s' =>
    change (Except.ok (if s'.1.reg .tdh = start then Sum.inr s' else Sum.inl s') >>= _) =
      (if _ then _ else _)
    split <;> rfl

/-- Taking the slot at the head moves the head to the next one. -/
theorem takeSlot_next (fuel : ℕ) {s : Nic × UInt32} {len : UInt32} {head : ℕ}
    (hhead : (s.1.reg .tdh).toNat = head) (hlen : s.1.reg .tdlen = len) :
    Ensures (fun s' => SameRing s.1 s'.1 ∧ (s'.1.reg .tdh).toNat = Ring.next (slotCount len) head)
      (takeSlot fuel s (UInt32.ofNat head)) := by
  subst hhead
  rw [UInt32.ofNat_toNat]
  exact (takeSlot_moves fuel s _).mono fun s' h => ⟨h.1, by rw [h.2, hlen, nextSlot_toNat]⟩

/-- Taking the slots of a walk from the head leaves the head at the walk's end. -/
theorem takeSlots_moves {len : UInt32} {tail start head last : ℕ} {slots : List ℕ}
    (hwalk : Ring.Walk (Ring.next (slotCount len)) tail start head slots last) (fuel : ℕ)
    {s : Nic × UInt32}
    (hhead : (s.1.reg .tdh).toNat = head) (hlen : s.1.reg .tdlen = len) :
    Ensures (fun s' => SameRing s.1 s'.1 ∧ (s'.1.reg .tdh).toNat = last)
      (takeSlots fuel slots s) := by
  induction hwalk generalizing s with
  | done => exact Ensures.ok ⟨.refl _, hhead⟩
  | back hne hback =>
    rw [takeSlots_cons]
    exact (takeSlot_next fuel hhead hlen).bind fun s' h => Ensures.ok ⟨h.1, h.2.trans hback⟩
  | step hne hnext hrest ih =>
    rw [takeSlots_cons]
    refine (takeSlot_next fuel hhead hlen).bind fun s' h => ?_
    exact (ih h.2 (h.1.tdlen.trans hlen)).mono fun s'' h' => ⟨h.1.trans h'.1, h'.2⟩

/-- The loop takes the slots of the walk that begins at the head. -/
theorem xmitLoop_eq {start tail len : UInt32} {head last : ℕ} {slots : List ℕ}
    (hwalk : Ring.Walk (Ring.next (slotCount len)) tail.toNat start.toNat head slots last)
    (fuel rounds : ℕ)
    (hrounds : slots.length ≤ rounds) {s : Nic × UInt32} (hhead : (s.1.reg .tdh).toNat = head)
    (htail : s.1.reg .tdt = tail) (hlen : s.1.reg .tdlen = len) :
    loop .spent (xmitRound fuel start) (rounds + 1) s = takeSlots fuel slots s := by
  -- in the two cases that take a slot, it is the one at the head
  have htakes {head rounds : ℕ} {s : Nic × UInt32} (hhead : (s.1.reg .tdh).toNat = head)
      (htail : s.1.reg .tdt = tail) (hne : head ≠ tail.toNat) :
      loop .spent (xmitRound fuel start) (rounds + 1) s =
        takeSlot fuel s (UInt32.ofNat head) >>= fun s' =>
          if s'.1.reg .tdh = start then .ok s'
          else loop .spent (xmitRound fuel start) rounds s' := by
    subst hhead
    rw [UInt32.ofNat_toNat]
    exact xmitLoop_takes fuel rounds start fun h => hne (by rw [h, htail])
  induction hwalk generalizing s rounds with
  | done =>
    have hmeet : s.1.reg .tdh = s.1.reg .tdt := UInt32.toNat_inj.mp (by rw [hhead, htail])
    exact xmitLoop_done fuel rounds start hmeet
  | back hne hback =>
    rw [htakes hhead htail hne, takeSlots_cons]
    refine (takeSlot_next fuel hhead hlen).bind_congr fun s' h => ?_
    exact if_pos (UInt32.toNat_inj.mp (h.2.trans hback))
  | step hne hnext hrest ih =>
    obtain ⟨rounds, rfl⟩ : ∃ k, rounds = k + 1 :=
      ⟨rounds - 1, by rw [List.length_cons] at hrounds; omega⟩
    rw [htakes hhead htail hne, takeSlots_cons]
    refine (takeSlot_next fuel hhead hlen).bind_congr fun s' h => ?_
    rw [if_neg fun hmeet => hnext (by rw [← h.2, hmeet])]
    exact ih rounds (Nat.le_of_succ_le_succ hrounds) h.2 (h.1.tdt.trans htail)
      (h.1.tdlen.trans hlen)

/-- With head and tail outside the ring and apart from each other the loop never ends. -/
theorem xmitLoop_ne_ok {start tail len : UInt32} (hstart : slotCount len ≤ start.toNat)
    (htail : slotCount len ≤ tail.toNat) (hne : start ≠ tail) (fuel rounds : ℕ) {s : Nic × UInt32}
    (hs : s.1.reg .tdh = start) (hstail : s.1.reg .tdt = tail) (hslen : s.1.reg .tdlen = len)
    (result : Nic × UInt32) : loop .spent (xmitRound fuel start) rounds s ≠ .ok result := by
  have hpos : 0 < slotCount len := Nat.lt_of_lt_of_le Nat.one_pos (Nat.le_max_left _ _)
  refine loop_ne_ok (fun s => (s.1.reg .tdh = start ∨ (s.1.reg .tdh).toNat < slotCount len) ∧
    s.1.reg .tdt = tail ∧ s.1.reg .tdlen = len) ?_ ⟨.inl hs, hstail, hslen⟩ rounds result
  rintro s ⟨hhead, hstail, hslen⟩
  have haway : s.1.reg .tdh ≠ s.1.reg .tdt := by
    rw [hstail]
    rcases hhead with hhead | hhead
    · rwa [hhead]
    · intro hmeet
      rw [hmeet] at hhead
      omega
  rw [xmitRound, if_neg haway]
  refine (takeSlot_moves fuel s _).map fun s' h => ?_
  have hlt : (s'.1.reg .tdh).toNat < slotCount len := by
    rw [h.2, hslen, nextSlot_toNat, Ring.next]
    split <;> omega
  have hstay : s'.1.reg .tdh ≠ start := fun hmeet => by
    rw [hmeet] at hlt
    omega
  rw [if_neg hstay]
  exact ⟨.inr hlt, h.1.tdt.trans hstail, h.1.tdlen.trans hslen⟩

/-- The head of the transmit ring. -/
def txHead (n : Nic) : ℕ := (n.reg .tdh).toNat

/-- The tail of the transmit ring. -/
def txTail (n : Nic) : ℕ := (n.reg .tdt).toNat

/-- The number of slots of the transmit ring. -/
def txSlots (n : Nic) : ℕ := slotCount (n.reg .tdlen)

/-- The slots that `start_xmit` takes. -/
def txVisited (n : Nic) : List ℕ := Ring.visited (txSlots n) (txHead n) (txTail n)

/-- The interrupts that are due when the slots have been taken. -/
def raiseCause (s : Nic × UInt32) : Nic := s.1.mapDev (setIcs · 0 s.2)

/-- Raising interrupts leaves the head. -/
theorem raiseCause_tdh (s : Nic × UInt32) : (raiseCause s).reg .tdh = s.1.reg .tdh := by
  change (setIcs s.1.dev 0 s.2).macReg MacReg.tdh.index = _
  unfold setIcs setInterruptCause
  simp only [E1000State.setMac]
  rfl

/-- There is always a slot. -/
theorem txSlots_pos (n : Nic) : 0 < txSlots n :=
  Nat.lt_of_lt_of_le Nat.one_pos (Nat.le_max_left _ _)

/-- A transmitter that is enabled runs the loop. -/
theorem startXmit_eq_loop {n : Nic} (henabled : n.reg .tctl &&& 2 ≠ 0) (fuel : ℕ) :
    startXmit fuel n = (loop .spent (xmitRound fuel (n.reg .tdh)) fuel (n, 2)).map raiseCause :=
  if_neg henabled

section Enabled

variable {n : Nic} (henabled : n.reg .tctl &&& 2 ≠ 0)
  (hinside : txHead n < txSlots n ∨ txTail n < txSlots n ∨ txHead n = txTail n) {fuel : ℕ}
  (hfuel : (txVisited n).length < fuel)
include henabled hinside hfuel

/-- `start_xmit` takes the slots that are visited and raises the causes. -/
theorem startXmit_eq_takeSlots :
    startXmit fuel n = (takeSlots fuel (txVisited n) (n, 2)).map raiseCause := by
  obtain ⟨rounds, rfl⟩ : ∃ k, fuel = k + 1 := ⟨fuel - 1, by omega⟩
  have hloop := xmitLoop_eq (Ring.walk_visited (txSlots_pos n) hinside) (rounds + 1) rounds
    (Nat.le_of_lt_succ hfuel) (s := (n, 2)) rfl rfl rfl
  rw [startXmit_eq_loop henabled, hloop]
  rfl

/-- `start_xmit` leaves the head where the walk stops. -/
theorem startXmit_txHead :
    Ensures (fun n' => txHead n' = Ring.stop (txSlots n) (txHead n) (txTail n))
      (startXmit fuel n) := by
  have hends :=
    takeSlots_moves (Ring.walk_visited (txSlots_pos n) hinside) fuel (s := (n, 2)) rfl rfl
  rw [startXmit_eq_takeSlots henabled hinside hfuel]
  refine hends.map fun s h => ?_
  rw [txHead, raiseCause_tdh]
  exact h.2

end Enabled

/-- `start_xmit` takes the slots from the head to the tail in order, or goes around once if the tail
is outside the ring, and returns with the head behind the last one if each descriptor fits its
packet. It never returns if head and tail are outside and apart. -/
theorem startXmit_visits (fuel : ℕ) (n : Nic) (henabled : n.reg .tctl &&& 2 ≠ 0) :
    ((txHead n < txSlots n ∨ txTail n < txSlots n ∨ txHead n = txTail n) →
      (txVisited n).length < fuel →
      startXmit fuel n = (takeSlots fuel (txVisited n) (n, 2)).map raiseCause ∧
        Ensures (fun n' => txHead n' = Ring.stop (txSlots n) (txHead n) (txTail n))
          (startXmit fuel n) ∧
        (2 ^ 16 ≤ fuel → SlotsFit fuel (txVisited n) (n, 2) → ∃ n', startXmit fuel n = .ok n' ∧
          txHead n' = Ring.stop (txSlots n) (txHead n) (txTail n))) ∧
    (txSlots n ≤ txHead n → txSlots n ≤ txTail n → txHead n ≠ txTail n →
      ∀ n', startXmit fuel n ≠ .ok n') := by
  constructor
  · intro hinside hfuel
    have htakes := startXmit_eq_takeSlots henabled hinside hfuel
    have hhead := startXmit_txHead henabled hinside hfuel
    refine ⟨htakes, hhead, fun hrounds hfit => ?_⟩
    obtain ⟨s, htaken⟩ := takeSlots_returns hrounds hfit
    have hreturn : startXmit fuel n = .ok (raiseCause s) := by
      rw [htakes, htaken]
      rfl
    exact ⟨raiseCause s, hreturn, hhead _ hreturn⟩
  · intro hhead htail hne n' hreturn
    rw [startXmit_eq_loop henabled] at hreturn
    have hnever := xmitLoop_ne_ok hhead htail (fun h => hne (congrArg UInt32.toNat h)) fuel fuel
      (s := (n, 2)) rfl rfl rfl
    cases hloop : loop .spent (xmitRound fuel (n.reg .tdh)) fuel (n, 2) with
    | error stop => simp [hloop, Except.map] at hreturn
    | ok s => exact hnever s hloop

/-- A ring of eight slots at `0x1000` with a transmitter that is enabled. A context descriptor in
slot 6 asks for segments with a header of fourteen bytes and six bytes of payload; slots 7 and 0
hold a packet of thirty bytes. -/
def enabledRing : Nic :=
  let ram := AddressSpace.write (fun _ => 0) 0x1060 (leBytes 8 0 ++ leBytes 4 0x24000000 ++
    leBytes 4 0x00060e00 ++ leBytes 8 0x2000 ++ leBytes 4 0x2410000a ++ leBytes 4 0)
  let ram := ram.write 0x1000 (leBytes 8 0x200a ++ leBytes 4 0x2d100014 ++ leBytes 4 0)
  let n : Nic := { (default : Nic) with ram := ram.write 0x2000 ((List.range 30).map UInt8.ofNat) }
  (((n.setReg .tctl 2).setReg .tdbal 0x1000).setReg .tdlen 128).setReg .tdh 6

/-- Three slots around the end of the ring are taken and `start_xmit` returns; no slot is reached
again from outside the ring. -/
theorem startXmit_visits_enabledRing :
    startXmit (2 ^ 16) (enabledRing.setReg .tdt 1) =
        (takeSlots (2 ^ 16) [6, 7, 0] (enabledRing.setReg .tdt 1, 2)).map raiseCause ∧
      (∃ n', startXmit (2 ^ 16) (enabledRing.setReg .tdt 1) = .ok n' ∧ txHead n' = 1) ∧
      ∀ n', startXmit 9 ((enabledRing.setReg .tdt 9).setReg .tdh 8) ≠ .ok n' := by
  have hvisits :=
    (startXmit_visits (2 ^ 16) (enabledRing.setReg .tdt 1) (by decide)).1 (by decide) (by decide)
  refine ⟨hvisits.1, hvisits.2.2 (Nat.le_refl _) (by decide +kernel), ?_⟩
  exact (startXmit_visits 9 ((enabledRing.setReg .tdt 9).setReg .tdh 8) (by decide)).2
    (by decide) (by decide)
    (by decide)

end VirtualFirmware.Network
