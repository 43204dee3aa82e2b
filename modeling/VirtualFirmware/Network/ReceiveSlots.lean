import VirtualFirmware.Library.Regions
import VirtualFirmware.Network.ReceiveRing

/-!
# The slots that a packet uses up

A packet is stored with the first slot that is given and has a buffer. The slots without a buffer
that come before are marked as done, and are used up as well. If no slot has a buffer, all are used
up and the packet is refused.
-/

namespace VirtualFirmware.Network

open Library Device AddressSpace

/-- The descriptor in a slot. -/
def rxDesc (n : Nic) (slot : ℕ) : RxDesc := rxDescAt n (UInt32.ofNat slot)

/-- The address of a slot. -/
def rxSlotAddr (n : Nic) (slot : ℕ) : UInt64 := rxSlot n (UInt32.ofNat slot)

/-- The descriptor in a slot has a buffer. -/
def hasBuffer (n : Nic) (slot : ℕ) : Bool := (rxDesc n slot).bufferAddr ≠ 0

/-- The slots that one packet uses up: those without a buffer that come first, and the one it is
stored with. -/
def usedBy (n : Nic) : List ℕ → List ℕ
  | [] => []
  | slot :: rest => if hasBuffer n slot then [slot] else slot :: usedBy n rest

/-- Where the head comes to while a packet uses up slots. -/
def headsPassed (n : Nic) : List ℕ → List ℕ
  | [] => []
  | slot :: rest => (rest ++ [rxTail n]).headI :: if hasBuffer n slot then []
      else headsPassed n rest

/-- Guest RAM with a packet stored in a slot. -/
def storeAt (n : Nic) (packet : RxPacket) (ram : AddressSpace) (slot : ℕ) : AddressSpace :=
  (storePacket packet (rxDesc n slot) ram).write (rxSlotAddr n slot)
  ((rxDesc n slot).filled n.dev packet).toBytes

/-- The slots are at the same addresses. -/
theorem RxKept.rxSlotAddr {n m : Nic} (h : RxKept n m) (slot : ℕ) :
    Network.rxSlotAddr m slot = Network.rxSlotAddr n slot := by
  rw [Network.rxSlotAddr, Network.rxSlotAddr, rxSlot, rxSlot,
    h.reg (by decide : RxUnwritten MacReg.rdbah.index),
    h.reg (by decide : RxUnwritten MacReg.rdbal.index)]

/-- The slots of the receive ring are records that follow each other. -/
theorem rxSlotAddr_eq (n : Nic) {slot : ℕ} (hslot : slot < 2 ^ 16) :
    rxSlotAddr n slot =
      recordAt RxDesc.size ((n.reg .rdbah).toUInt64 <<< 32 + (n.reg .rdbal).toUInt64) slot := by
  rw [rxSlotAddr, rxSlot, add_mul_eq_recordAt, UInt32.toNat_toUInt64, UInt32.toNat_ofNat',
    Nat.mod_eq_of_lt (by omega)]

/-- Different slots do not overlap. -/
theorem rxSlotAddr_apart (n : Nic) {i j : ℕ} (hi : i < 2 ^ 16) (hj : j < 2 ^ 16) (hne : i ≠ j) :
    Apart (rxSlotAddr n i) RxDesc.size (rxSlotAddr n j) RxDesc.size := by
  have hfits (slot : ℕ) (hslot : slot < 2 ^ 16) : RxDesc.size * (slot + 1) ≤ 2 ^ 63 := by
    unfold RxDesc.size
    omega
  rw [rxSlotAddr_eq n hi, rxSlotAddr_eq n hj]
  exact recordAt_apart _ (hfits i hi) (hfits j hj) hne

/-- The bytes of a descriptor have its size. -/
theorem RxDesc.toBytes_length (desc : RxDesc) : desc.toBytes.length = RxDesc.size := by
  simp only [RxDesc.toBytes, List.length_append, leBytes_length, List.length_cons, List.length_nil]
  rfl

/-- A descriptor can be read back. -/
theorem RxDesc.ofBytes_toBytes (desc : RxDesc) : RxDesc.ofBytes desc.toBytes = desc := by
  have hlong : leNat (leBytes 8 desc.bufferAddr.toNat) = desc.bufferAddr.toNat :=
    leNat_leBytes_of_lt desc.bufferAddr.toNat_lt
  have hshort (value : UInt16) : leNat (leBytes 2 value.toNat) = value.toNat :=
    leNat_leBytes_of_lt value.toNat_lt
  simp [RxDesc.ofBytes, RxDesc.toBytes, List.drop_append, List.drop_of_length_le,
    List.take_of_length_le, hlong, hshort]

/-- What a store to a slot leaves: the ranges that overlap neither the slot nor its buffer. -/
theorem read_storeAt {n : Nic} {packet : RxPacket} {slot : ℕ} {target : UInt64} {count : ℕ}
    (hslot : Apart target count (rxSlotAddr n slot) RxDesc.size)
    (hbuffer : hasBuffer n slot = true →
      Apart target count (rxDesc n slot).bufferAddr packet.bytes.length)
    (ram : AddressSpace) :
    (storeAt n packet ram slot).read target count = ram.read target count := by
  unfold storeAt storePacket
  rw [read_write_of_apart (by rwa [RxDesc.toBytes_length])]
  split
  · rename_i hbuf
    exact read_write_of_apart (hbuffer (decide_eq_true hbuf)) _
  · rfl

/-- Filling the slot at the head stores the packet there. -/
theorem fillSlot_ram (packet : RxPacket) (n : Nic) :
    (fillSlot packet n).ram = storeAt n packet n.ram (rxHead n) := by
  have hindex : UInt32.ofNat (rxHead n) = n.reg .rdh := UInt32.ofNat_toNat
  unfold storeAt rxDesc rxSlotAddr
  rw [hindex]
  rfl

/-- What is written back does not depend on what receiving a packet changes. -/
theorem RxKept.filled {n m : Nic} (h : RxKept n m) (packet : RxPacket) (desc : RxDesc) :
    desc.filled m.dev packet = desc.filled n.dev packet := by
  have hrctl : m.dev.macReg MacReg.rctl.index = n.dev.macReg MacReg.rctl.index := h.reg (by decide)
  rw [RxDesc.filled, RxDesc.filled, fcsLen, fcsLen, hrctl]

/-- The descriptors in some slots are as before. -/
def SameDescs (n m : Nic) (slots : List ℕ) : Prop := ∀ slot ∈ slots, rxDesc m slot = rxDesc n slot

namespace SameDescs

variable {n m : Nic} {slots : List ℕ}

/-- With the same descriptors a packet uses up the same slots. -/
theorem usedBy (h : SameDescs n m slots) : Network.usedBy m slots = Network.usedBy n slots := by
  induction slots with
  | nil => rfl
  | cons slot rest ih =>
    rw [Network.usedBy, Network.usedBy, hasBuffer, hasBuffer, h slot List.mem_cons_self,
      ih fun slot hslot => h slot (List.mem_cons_of_mem _ hslot)]

/-- With the same descriptors and tail the head comes to the same slots. -/
theorem headsPassed (h : SameDescs n m slots) (htail : rxTail m = rxTail n) :
    Network.headsPassed m slots = Network.headsPassed n slots := by
  induction slots with
  | nil => rfl
  | cons slot rest ih =>
    rw [Network.headsPassed, Network.headsPassed, hasBuffer, hasBuffer, h slot List.mem_cons_self,
      htail, ih fun slot hslot => h slot (List.mem_cons_of_mem _ hslot)]

/-- With the same descriptors there is a buffer in both or in none. -/
theorem any (h : SameDescs n m slots) : slots.any (hasBuffer m) = slots.any (hasBuffer n) := by
  rw [Bool.eq_iff_iff, List.any_eq_true, List.any_eq_true]
  refine exists_congr fun slot => and_congr_right fun hslot => ?_
  rw [hasBuffer, hasBuffer, h slot hslot]

/-- With the same descriptors the same bytes are stored. -/
theorem foldl_storeAt (h : SameDescs n m slots) (hkept : RxKept n m) (packet : RxPacket)
    {used : List ℕ} (hused : ∀ slot ∈ used, slot ∈ slots) (ram : AddressSpace) :
    used.foldl (storeAt m packet) ram = used.foldl (storeAt n packet) ram := by
  refine List.foldl_ext _ _ _ fun ram slot hslot => ?_
  rw [storeAt, storeAt, h slot (hused slot hslot), hkept.rxSlotAddr, hkept.filled]

end SameDescs

/-- A packet uses up slots that are given. -/
theorem mem_of_mem_usedBy {n : Nic} {slots : List ℕ} {slot : ℕ} (h : slot ∈ usedBy n slots) :
    slot ∈ slots := by
  induction slots with
  | nil => exact h
  | cons first rest ih =>
    rw [usedBy] at h
    split at h
    · exact List.mem_cons.mpr (.inl (List.mem_singleton.mp h))
    · obtain heq | h := List.mem_cons.mp h
      · exact List.mem_cons.mpr (.inl heq)
      · exact List.mem_cons_of_mem _ (ih h)

/-- The slots left when a packet has used up some. -/
def leftBy (n : Nic) (slots : List ℕ) : List ℕ := slots.drop (usedBy n slots).length

/-- Filling a slot without a buffer leaves the other descriptors. -/
theorem fillSlot_sameDescs {n : Nic} (hready : RxReady n) (packet : RxPacket) {slot : ℕ}
    {rest : List ℕ} (hgiven : rxGiven n = slot :: rest) (hnull : hasBuffer n slot = false) :
    SameDescs n (fillSlot packet n) rest := by
  intro other hother
  have hhead := rxHead_of_given hready hgiven
  have hnodup := rxGiven_nodup hready
  rw [hgiven] at hnodup
  have hne : other ≠ slot := fun heq => (List.nodup_cons.mp hnodup).1 (heq ▸ hother)
  have hlt {i : ℕ} (hi : i ∈ slot :: rest) : i < 2 ^ 16 :=
    (lt_of_mem_rxGiven hready (hgiven ▸ hi)).trans_le hready.slots
  have hapart :=
    rxSlotAddr_apart n (hlt (List.mem_cons_of_mem _ hother)) (hlt List.mem_cons_self) hne
  have hread : (fillSlot packet n).ram.read (rxSlotAddr n other) RxDesc.size =
      n.ram.read (rxSlotAddr n other) RxDesc.size := by
    rw [fillSlot_ram, hhead]
    exact read_storeAt hapart (fun h => absurd (hnull.symm.trans h) Bool.false_ne_true) _
  have haddr := (fillSlot_kept packet n).rxSlotAddr other
  unfold rxDesc rxDescAt
  unfold rxSlotAddr at hread haddr
  rw [haddr, hread]

/-- After the first slot that is given the head is at the next one, or at the tail. -/
theorem rxHead_fillSlot_of_given {n : Nic} (hready : RxReady n) (packet : RxPacket) {slot : ℕ}
    {rest : List ℕ} (hgiven : rxGiven n = slot :: rest) :
    rxGiven (fillSlot packet n) = rest ∧ rxHead (fillSlot packet n) =
      (rest ++ [rxTail n]).headI := by
  have hcons := rxGiven_fillSlot hready packet (hgiven ▸ List.cons_ne_nil slot rest)
  rw [hgiven] at hcons
  have hrest := (List.cons.inj hcons).2.symm
  refine ⟨hrest, ?_⟩
  cases rest with
  | nil =>
    exact (rxHead_of_none_given (hready.fillSlot packet) hrest).1.trans (fillSlot_ring packet n).1
  | cons next others => exact rxHead_of_given (hready.fillSlot packet) hrest

/-- The slot at the head is filled in a round if one is given. -/
theorem receiveRound_of_given {start : UInt32} (packet : RxPacket) {n : Nic} (hready : RxReady n)
    {slot : ℕ} {rest : List ℕ} (hgiven : rxGiven n = slot :: rest)
    (hstart : start.toNat ≠ (rest ++ [rxTail n]).headI) :
    receiveRound start packet n =
      .ok (if hasBuffer n slot then .inr (fillSlot packet n, true)
        else .inl (fillSlot packet n)) := by
  have hopen : ¬ (n.reg .rdh = n.reg .rdt ∧ n.dev.checkRxov = true) := by
    intro ⟨hmeet, hover⟩
    have hheads : rxHead n = rxTail n := congrArg UInt32.toNat hmeet
    have hnone : rxGiven n = [] := by rw [rxGiven, if_pos hheads, if_pos hover]
    exact List.cons_ne_nil slot rest (hgiven.symm.trans hnone)
  have hnext : (fillSlot packet n).reg .rdh ≠ start := by
    rintro rfl
    exact hstart (rxHead_fillSlot_of_given hready packet hgiven).2
  have hindex : n.reg .rdh = UInt32.ofNat slot := by
    rw [← rxHead_of_given hready hgiven]
    exact UInt32.ofNat_toNat.symm
  unfold receiveRound
  dsimp only
  rw [if_neg hopen, if_neg hnext, hindex]
  unfold hasBuffer rxDesc
  by_cases hnull : (rxDescAt n (UInt32.ofNat slot)).bufferAddr = 0
  · rw [if_pos hnull, if_neg (by simpa using hnull)]
  · rw [if_neg hnull, if_pos (by simpa using hnull)]

/-- The loop of `e1000_receive` uses up slots until one has a buffer, unless the head comes back to
where it began. -/
theorem receiveLoop_eq (start : UInt32) (packet : RxPacket) {n : Nic} (hready : RxReady n)
    {slots : List ℕ} (hgiven : rxGiven n = slots) {fuel : ℕ} (hfuel : slots.length < fuel)
    (hwrap : start.toNat ∉ headsPassed n slots) :
    ∃ m, loop .spent (receiveRound start packet) fuel n =
        .ok (if slots.any (hasBuffer n) then (m, true) else (m.raise 0x40, false)) ∧
      RxKept n m ∧ RxReady m ∧ m.dev.checkRxov = true ∧ m.reg .icr = n.reg .icr ∧
      rxGiven m = leftBy n slots ∧
      m.ram = (usedBy n slots).foldl (storeAt n packet) n.ram := by
  induction slots generalizing n fuel with
  | nil =>
    obtain ⟨hmeet, hover⟩ := rxHead_of_none_given hready hgiven
    obtain ⟨fuel, rfl⟩ := Nat.exists_eq_add_one_of_ne_zero (Nat.ne_zero_of_lt hfuel)
    refine ⟨n, loop_of_inr ?_ fuel, .refl n, hready, hover, rfl, hgiven, rfl⟩
    rw [receiveRound, if_pos ⟨UInt32.toNat_inj.mp hmeet, hover⟩]
    rfl
  | cons slot rest ih =>
    obtain ⟨fuel, rfl⟩ := Nat.exists_eq_add_one_of_ne_zero (Nat.ne_zero_of_lt hfuel)
    have hrest := (rxHead_fillSlot_of_given hready packet hgiven).1
    have hready' := hready.fillSlot packet
    have hkept := fillSlot_kept packet n
    have hram : (fillSlot packet n).ram = storeAt n packet n.ram slot := by
      rw [fillSlot_ram, rxHead_of_given hready hgiven]
    have hicr : (fillSlot packet n).reg .icr = n.reg .icr := fillSlot_macReg packet n (by decide)
    have hround := receiveRound_of_given packet hready hgiven fun heq =>
      hwrap (List.mem_cons.mpr (.inl heq))
    cases hbuffer : hasBuffer n slot with
    | true =>
      have hused : usedBy n (slot :: rest) = [slot] := by rw [usedBy, if_pos hbuffer]
      rw [hbuffer] at hround
      refine ⟨fillSlot packet n, ?_, hkept, hready', rfl, hicr, ?_, ?_⟩
      · rw [loop_of_inr hround, List.any_cons, hbuffer]
        rfl
      · rw [hrest, leftBy, hused]
        rfl
      · rw [hram, hused]
        rfl
    | false =>
      have hused : usedBy n (slot :: rest) = slot :: usedBy n rest := by
        rw [usedBy, hbuffer, if_neg Bool.false_ne_true]
      have hsame := fillSlot_sameDescs hready packet hgiven hbuffer
      have hwrap' : start.toNat ∉ headsPassed (fillSlot packet n) rest := by
        rw [hsame.headsPassed (fillSlot_ring packet n).1]
        intro hmem
        apply hwrap
        rw [headsPassed, hbuffer]
        exact List.mem_cons_of_mem _ hmem
      obtain ⟨m, hloop, hkept', hlast, hover, hicr', hleft, hram'⟩ :=
        ih hready' hrest (Nat.lt_of_succ_lt_succ hfuel) hwrap'
      rw [hbuffer] at hround
      refine ⟨m, ?_, hkept.trans hkept', hlast, hover, hicr'.trans hicr, ?_, ?_⟩
      · rw [loop_of_inl hround, hloop, List.any_cons, hbuffer, Bool.false_or, hsame.any]
      · rw [hleft, leftBy, leftBy, hused, hsame.usedBy]
        rfl
      · rw [hram', hsame.usedBy, hsame.foldl_storeAt hkept packet (fun _ => mem_of_mem_usedBy),
          hram, hused]
        rfl

/-- The device takes a packet: it is enabled, the packet fits a buffer, and the filter lets it
pass. -/
structure Accepted (n : Nic) (buf : List UInt8) : Prop where
  enabled : e1000CanReceive n.dev = true
  fits : (padded buf).length ≤ n.dev.rxbufSize.toNat
  passes : receiveFilter n.dev (padded buf) = true

/-- What is stored of a packet that arrives. -/
def arriving (n : Nic) (buf : List UInt8) : RxPacket := rxPacket n.dev (padded buf)

/-- A packet that is taken goes through the loop. -/
theorem e1000Receive_of_accepted {n : Nic} {buf : List UInt8} (h : Accepted n buf) (fuel : ℕ) :
    e1000Receive fuel buf n =
      (loop .spent (receiveRound (n.reg .rdh) (arriving n buf)) fuel n).map fun s =>
      if s.2 then (received (arriving n buf).bytes.length s.1, some (arriving n buf).bytes.length)
      else (s.1, none) := by
  unfold e1000Receive
  rw [h.enabled, Bool.not_true, if_neg Bool.false_ne_true]
  dsimp only
  rw [if_neg (Nat.not_lt.mpr h.fits), h.passes, Bool.not_true, if_neg Bool.false_ne_true]
  rfl

/-- If the whole ring is given, every slot has a buffer. A slot without one could bring the head
back to where it began within one packet, which the device takes for an overrun. -/
def NoWrap (n : Nic) : Prop :=
  rxHead n = rxTail n → n.dev.checkRxov = true ∨ ∀ slot ∈ rxGiven n, hasBuffer n slot = true

/-- The head comes to slots that are given or to the tail. -/
theorem mem_headsPassed {n : Nic} {slots : List ℕ} {slot : ℕ} (h : slot ∈ headsPassed n slots) :
    slot ∈ slots.tail ∨ slot = rxTail n := by
  induction slots with
  | nil => exact absurd h List.not_mem_nil
  | cons first rest ih =>
    obtain rfl | h := List.mem_cons.mp h
    · cases rest with
      | nil => exact .inr rfl
      | cons next others => exact .inl List.mem_cons_self
    · split at h
      · exact absurd h List.not_mem_nil
      · exact (ih h).imp_left List.mem_of_mem_tail

/-- The head does not come back within one packet. -/
theorem NoWrap.not_mem {n : Nic} (h : NoWrap n) (hready : RxReady n) :
    rxHead n ∉ headsPassed n (rxGiven n) := by
  intro hmem
  have hnodup := rxGiven_nodup hready
  cases hgiven : rxGiven n with
  | nil =>
    rw [hgiven] at hmem
    exact List.not_mem_nil hmem
  | cons slot rest =>
    have hhead := rxHead_of_given hready hgiven
    rw [hgiven] at hmem hnodup
    have hnew : rxHead n ∉ rest := hhead ▸ (List.nodup_cons.mp hnodup).1
    obtain hrest | htail := mem_headsPassed hmem
    · exact hnew hrest
    · obtain hover | hbuffers := h htail
      · rw [rxGiven, if_pos htail, if_pos hover] at hgiven
        exact absurd hgiven.symm (List.cons_ne_nil _ _)
      · have hbuffer := hbuffers slot (hgiven ▸ List.mem_cons_self)
        rw [headsPassed, if_pos hbuffer, List.mem_singleton] at hmem
        -- the head moves on by one slot, and there is another one
        have hnext := (rxHead_fillSlot_of_given hready ⟨[], 0, 0⟩ hgiven).2
        rw [← hmem, rxHead_fillSlot, Ring.next] at hnext
        have htwo := hready.two
        split at hnext <;> omega

/-- What is reported when a packet arrives: that it is stored, or an overrun. -/
def reportOf (n : Nic) : UInt32 := if (rxGiven n).any (hasBuffer n) then 0x80 else 0x40

/-- Receiving a packet uses up slots until one has a buffer. -/
theorem e1000Receive_eq {n : Nic} (hready : RxReady n) (hwrap : NoWrap n) {buf : List UInt8}
    (h : Accepted n buf) {fuel : ℕ} (hfuel : rxSlots n < fuel) :
    ∃ m, e1000Receive fuel buf n = .ok (m,
        if (rxGiven n).any (hasBuffer n) then some (arriving n buf).bytes.length else none) ∧
      RxKept n m ∧ RxReady m ∧ NoWrap m ∧ rxGiven m = leftBy n (rxGiven n) ∧
      m.ram = (usedBy n (rxGiven n)).foldl (storeAt n (arriving n buf)) n.ram ∧
      Raised m.dev (reportOf n) ∧ ∀ causes, Raised n.dev causes → Raised m.dev causes := by
  obtain ⟨m, hloop, hkept, hready', hover, hicr, hleft, hram⟩ :=
    receiveLoop_eq (n.reg .rdh) (arriving n buf) hready rfl
      ((rxGiven_length_le hready).trans_lt hfuel)
      (hwrap.not_mem hready)
  have hraised (causes : UInt32) (hcauses : Raised n.dev causes) : Raised m.dev causes := by
    rw [Raised]
    exact (congrArg (causes &&& ·) hicr).trans hcauses
  rw [e1000Receive_of_accepted h, hloop, reportOf]
  cases hany : (rxGiven n).any (hasBuffer n) with
  | true =>
    have hring := received_ring (arriving n buf).bytes.length m
    have hlast := received_kept (arriving n buf).bytes.length m
    have hreport := received_raised (arriving n buf).bytes.length m
    exact ⟨received (arriving n buf).bytes.length m, rfl, hkept.trans hlast,
      hready'.congr hlast hring.1, fun _ => .inl (hring.2.trans hover),
      (rxGiven_congr hlast hring.1 hring.2).trans hleft, hram, hreport.1,
      fun causes hcauses => hreport.2 causes (hraised causes hcauses)⟩
  | false =>
    have hlast := raise_kept m 0x40
    have hhead : (m.raise 0x40).reg .rdh = m.reg .rdh :=
      setInterruptCause_of_ne _ _ (by decide) (by decide)
    exact ⟨m.raise 0x40, rfl, hkept.trans hlast, hready'.congr hlast hhead, fun _ => .inl hover,
      (rxGiven_congr hlast hhead rfl).trans hleft, hram, raised_setIcs (by decide) _,
      fun causes hcauses => (hraised causes hcauses).setIcs _⟩

end VirtualFirmware.Network
