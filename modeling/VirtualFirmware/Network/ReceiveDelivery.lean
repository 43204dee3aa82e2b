import VirtualFirmware.Network.ReceiveSlots

/-!
# Delivery of packets

Packets that arrive one after the other are stored in the buffers of the slots that the driver has
given, in order. The packets for which no slot is left are refused.
-/

namespace VirtualFirmware.Network

open Library Device AddressSpace

/-- The VLAN tag of a packet is stripped in the same way. -/
theorem RxKept.arriving {n m : Nic} (h : RxKept n m) (buf : List UInt8) :
    Network.arriving m buf = Network.arriving n buf := by
  have hctrl : m.dev.macReg MacReg.ctrl.index = n.dev.macReg MacReg.ctrl.index := h.reg (by decide)
  have hvet : m.dev.macReg MacReg.vet.index = n.dev.macReg MacReg.vet.index := h.reg (by decide)
  rw [Network.arriving, Network.arriving, rxPacket, rxPacket, vlanEnabled, vlanEnabled,
    isVlanPacket, isVlanPacket, vlanType, vlanType, hctrl, hvet]

/-- The tables that the filter reads are not written. -/
theorem rxUnwritten_of_le {index : ℕ} (h : 0x1480 ≤ index) : RxUnwritten index := by
  intro reg hreg
  have hbound : ∀ reg ∈ rxWritten, reg.index < 0x1480 := by decide
  exact (Nat.lt_of_lt_of_le (hbound reg hreg) h).ne'

/-- The filter lets the same packets pass. -/
theorem RxKept.receiveFilter {n m : Nic} (h : RxKept n m) (buf : List UInt8) :
    Network.receiveFilter m.dev buf = Network.receiveFilter n.dev buf := by
  have hrctl : m.dev.macReg MacReg.rctl.index = n.dev.macReg MacReg.rctl.index := h.reg (by decide)
  have hvet : m.dev.macReg MacReg.vet.index = n.dev.macReg MacReg.vet.index := h.reg (by decide)
  have htable {index : ℕ} (hindex : 0x1480 ≤ index) : m.dev.macReg index = n.dev.macReg index :=
    h.regs index (rxUnwritten_of_le hindex)
  have haddress : addressMatches m.dev buf = addressMatches n.dev buf := by
    funext entry
    rw [addressMatches, addressMatches,
      htable (Nat.le_add_right_of_le (Nat.le_add_right_of_le (by decide))),
      htable (Nat.le_add_right_of_le (by decide))]
  have hvlan : vlanListed m.dev buf = vlanListed n.dev buf := by
    rw [vlanListed, vlanListed, htable (Nat.le_add_right_of_le (by decide))]
  have hmulticast : multicastListed m.dev buf = multicastListed n.dev buf := by
    rw [multicastListed, multicastListed, hrctl, htable (Nat.le_add_right_of_le (by decide))]
  rw [Network.receiveFilter, Network.receiveFilter, isVlanPacket, isVlanPacket, vlanType, vlanType,
    vlanRxFilterEnabled, vlanRxFilterEnabled, hrctl, hvet, haddress, hvlan, hmulticast]

/-- A packet that is taken is also taken later. -/
theorem Accepted.congr {n m : Nic} {buf : List UInt8} (h : Accepted n buf) (hkept : RxKept n m) :
    Accepted m buf where
  enabled := by
    have hrctl : m.dev.macReg MacReg.rctl.index = n.dev.macReg MacReg.rctl.index :=
      hkept.reg (by decide)
    rw [e1000CanReceive, hrctl]
    exact h.enabled
  fits := by rw [hkept.rxbufSize]; exact h.fits
  passes := by rw [hkept.receiveFilter]; exact h.passes

/-- What is stored of a packet fits a buffer. -/
theorem Accepted.length_le {n : Nic} {buf : List UInt8} (h : Accepted n buf) :
    (arriving n buf).bytes.length ≤ n.dev.rxbufSize.toNat := by
  refine Nat.le_trans ?_ h.fits
  unfold arriving rxPacket
  split
  · rw [List.length_append, List.length_take, List.length_drop]
    omega
  · exact Nat.le_refl _

/-- The buffers of the slots that are given overlap neither each other nor the slots. -/
structure RxApart (n : Nic) : Prop where
  slots : ∀ i ∈ rxGiven n, hasBuffer n i = true → ∀ j ∈ rxGiven n,
    Apart (rxDesc n i).bufferAddr n.dev.rxbufSize.toNat (rxSlotAddr n j) RxDesc.size
  buffers : ∀ i ∈ rxGiven n, hasBuffer n i = true → ∀ j ∈ rxGiven n, hasBuffer n j = true → i ≠ j →
    Apart (rxDesc n i).bufferAddr n.dev.rxbufSize.toNat (rxDesc n j).bufferAddr
      n.dev.rxbufSize.toNat

/-- A range overlaps none of some slots, nor their buffers. -/
def ApartFrom (n : Nic) (slots : List ℕ) (target : UInt64) (count : ℕ) : Prop :=
  ∀ slot ∈ slots, Apart target count (rxSlotAddr n slot) RxDesc.size ∧
    (hasBuffer n slot = true → Apart target count (rxDesc n slot).bufferAddr n.dev.rxbufSize.toNat)

/-- Fewer bytes are apart as well. -/
theorem ApartFrom.mono {n : Nic} {slots : List ℕ} {target : UInt64} {count fewer : ℕ}
    (h : ApartFrom n slots target count) (hfewer : fewer ≤ count) :
    ApartFrom n slots target fewer :=
  fun slot hslot =>
    ⟨(h slot hslot).1.mono_left hfewer, fun hbuffer => ((h slot hslot).2 hbuffer).mono_left hfewer⟩

/-- The slots that are given and have a buffer. -/
def usable (n : Nic) : List ℕ := (rxGiven n).filter (hasBuffer n)

/-- A packet is in the buffer of a slot, and its descriptor says so. -/
structure StoredIn (n n' : Nic) (slot : ℕ) (packet : RxPacket) : Prop where
  bytes : n'.ram.read (rxDesc n slot).bufferAddr packet.bytes.length = packet.bytes
  desc : rxDesc n' slot = (rxDesc n slot).filled n.dev packet

/-- Some packets arrive one after the other. -/
def receiveAll (fuel : ℕ) : List (List UInt8) → Nic → Except Stop (Nic × List (Option ℕ))
  | [], n => .ok (n, [])
  | buf :: bufs, n => do
    let first ← e1000Receive fuel buf n
    let rest ← receiveAll fuel bufs first.1
    .ok (rest.1, first.2 :: rest.2)

/-- What a packet leaves: the ranges that overlap none of the slots, nor their buffers. -/
theorem read_foldl_storeAt {n : Nic} {packet : RxPacket}
    (hlength : packet.bytes.length ≤ n.dev.rxbufSize.toNat) {used : List ℕ} {target : UInt64}
    {count : ℕ} (h : ApartFrom n used target count) (ram : AddressSpace) :
    (used.foldl (storeAt n packet) ram).read target count = ram.read target count := by
  induction used generalizing ram with
  | nil => rfl
  | cons slot rest ih =>
    obtain ⟨hslot, hbuffer⟩ := h slot List.mem_cons_self
    rw [List.foldl_cons, ih fun other hother => h other (List.mem_cons_of_mem _ hother),
      read_storeAt hslot fun hhas => (hbuffer hhas).mono hlength]

/-- A packet uses up the first slot with a buffer and those before it, or all if none has one. -/
theorem usedBy_cases (n : Nic) (slots : List ℕ) :
    (slots.any (hasBuffer n) = false ∧ slots.filter (hasBuffer n) = [] ∧ leftBy n slots = []) ∨
      ∃ skipped slot, usedBy n slots = skipped ++ [slot] ∧ slots.any (hasBuffer n) = true ∧
        hasBuffer n slot = true ∧ slots = skipped ++ slot :: leftBy n slots ∧
        slots.filter (hasBuffer n) = slot :: (leftBy n slots).filter (hasBuffer n) := by
  induction slots with
  | nil => exact .inl ⟨rfl, rfl, rfl⟩
  | cons first rest ih =>
    cases hbuffer : hasBuffer n first with
    | true =>
      have hused : usedBy n (first :: rest) = [first] := by rw [usedBy, if_pos hbuffer]
      have hleft : leftBy n (first :: rest) = rest := by
        rw [leftBy, hused]
        rfl
      refine .inr ⟨[], first, hused, ?_, hbuffer, by rw [hleft]; rfl, ?_⟩
      · rw [List.any_cons, hbuffer, Bool.true_or]
      · rw [hleft, List.filter_cons_of_pos hbuffer]
    | false =>
      have hused : usedBy n (first :: rest) = first :: usedBy n rest := by
        rw [usedBy, hbuffer, if_neg Bool.false_ne_true]
      have hleft : leftBy n (first :: rest) = leftBy n rest := by
        rw [leftBy, hused]
        rfl
      have hfilter : (first :: rest).filter (hasBuffer n) = rest.filter (hasBuffer n) :=
        List.filter_cons_of_neg (by rw [hbuffer]; exact Bool.false_ne_true)
      rw [hleft, hfilter, hused, List.any_cons, hbuffer, Bool.false_or]
      obtain h | ⟨skipped, slot, heq, hany, hhas, hsplit, hrest⟩ := ih
      · exact .inl h
      · refine .inr ⟨first :: skipped, slot, by rw [heq]; rfl, hany, hhas, ?_, hrest⟩
        exact congrArg (first :: ·) hsplit

/-- The slots that are used up come first. -/
theorem usedBy_append_leftBy (n : Nic) (slots : List ℕ) :
    usedBy n slots ++ leftBy n slots = slots := by
  induction slots with
  | nil => rfl
  | cons first rest ih =>
    unfold leftBy at ih ⊢
    rw [usedBy]
    split
    · rfl
    · exact congrArg (first :: ·) ih

/-- A slot and its buffer hold the packet that is stored there last. -/
theorem storeAt_stored {n : Nic} {slot : ℕ}
    (hapart : Apart (rxDesc n slot).bufferAddr n.dev.rxbufSize.toNat
      (rxSlotAddr n slot) RxDesc.size) (hbuffer : hasBuffer n slot = true) {packet : RxPacket}
    (hlength : packet.bytes.length ≤ n.dev.rxbufSize.toNat) (ram : AddressSpace) :
    (storeAt n packet ram slot).read (rxDesc n slot).bufferAddr packet.bytes.length = packet.bytes ∧
      RxDesc.ofBytes ((storeAt n packet ram slot).read (rxSlotAddr n slot) RxDesc.size) =
        (rxDesc n slot).filled n.dev packet := by
  have hhas : (rxDesc n slot).bufferAddr ≠ 0 := of_decide_eq_true hbuffer
  have hsize := n.dev.rxbufSize.toNat_lt
  unfold storeAt storePacket
  rw [if_pos hhas]
  constructor
  · rw [read_write_of_apart (by rw [RxDesc.toBytes_length]; exact hapart.mono_left hlength),
      read_write _ _ _ (by omega)]
  · rw [← RxDesc.toBytes_length ((rxDesc n slot).filled n.dev packet), read_write _ _ _ (by
      rw [RxDesc.toBytes_length]; decide), RxDesc.ofBytes_toBytes]

section Step

variable {n m : Nic} (hready : RxReady n) (hapart : RxApart n)

include hready hapart

/-- A slot that is given overlaps no other, nor the buffers. -/
theorem apartFrom_slot {slot : ℕ} {others : List ℕ} (hslot : slot ∈ rxGiven n)
    (hothers : ∀ other ∈ others, other ∈ rxGiven n ∧ slot ≠ other) :
    ApartFrom n others (rxSlotAddr n slot) RxDesc.size := by
  intro other hother
  obtain ⟨hgiven, hne⟩ := hothers other hother
  have hlt {i : ℕ} (hi : i ∈ rxGiven n) : i < 2 ^ 16 :=
    (lt_of_mem_rxGiven hready hi).trans_le hready.slots
  exact ⟨rxSlotAddr_apart n (hlt hslot) (hlt hgiven) hne,
    fun hbuffer => (hapart.slots other hgiven hbuffer slot hslot).symm⟩

omit hready in
/-- The buffer of a slot overlaps no slot, nor the other buffers. -/
theorem apartFrom_buffer {slot : ℕ} {others : List ℕ} (hslot : slot ∈ rxGiven n)
    (hbuffer : hasBuffer n slot = true)
    (hothers : ∀ other ∈ others, other ∈ rxGiven n ∧ slot ≠ other) :
    ApartFrom n others (rxDesc n slot).bufferAddr n.dev.rxbufSize.toNat := by
  intro other hother
  obtain ⟨hgiven, hne⟩ := hothers other hother
  exact ⟨hapart.slots slot hslot hbuffer other hgiven,
    fun hbuffer' => hapart.buffers slot hslot hbuffer other hgiven hbuffer' hne⟩

variable (hkept : RxKept n m) {packet : RxPacket}
  (hlength : packet.bytes.length ≤ n.dev.rxbufSize.toNat)
  (hram : m.ram = (usedBy n (rxGiven n)).foldl (storeAt n packet) n.ram)

omit hready hapart in
include hkept in
/-- The descriptor of a slot, which is at the same place. -/
theorem RxKept.rxDesc_eq (slot : ℕ) :
    rxDesc m slot = RxDesc.ofBytes (m.ram.read (Network.rxSlotAddr n slot) RxDesc.size) := by
  rw [← hkept.rxSlotAddr]
  rfl

include hkept hlength hram

/-- The descriptors in the slots that are left are as before. -/
theorem sameDescs_left : SameDescs n m (leftBy n (rxGiven n)) := by
  intro slot hslot
  have hsplit := usedBy_append_leftBy n (rxGiven n)
  have hnodup := rxGiven_nodup hready
  rw [← hsplit] at hnodup
  have hothers : ∀ other ∈ usedBy n (rxGiven n), other ∈ rxGiven n ∧ slot ≠ other :=
    fun other hother => ⟨mem_of_mem_usedBy hother,
      fun heq => (List.nodup_append.mp hnodup).2.2 other hother slot hslot heq.symm⟩
  rw [hkept.rxDesc_eq, hram, read_foldl_storeAt hlength
    (apartFrom_slot hready hapart (List.mem_of_mem_drop hslot) hothers)]
  rfl

omit hready in
/-- The packet is in the slot that was used up last. -/
theorem storedIn_last {skipped : List ℕ} {slot : ℕ}
    (hused : usedBy n (rxGiven n) = skipped ++ [slot]) (hbuffer : hasBuffer n slot = true) :
    StoredIn n m slot packet := by
  have hslot : slot ∈ rxGiven n :=
    mem_of_mem_usedBy (hused ▸ List.mem_append_right _ (List.mem_singleton.mpr rfl))
  rw [hused, List.foldl_append, List.foldl_cons, List.foldl_nil] at hram
  obtain ⟨hbytes, hdesc⟩ :=
    storeAt_stored (hapart.slots slot hslot hbuffer slot hslot) hbuffer hlength
    (skipped.foldl (storeAt n packet) n.ram)
  exact ⟨by rw [hram, hbytes], by rw [hkept.rxDesc_eq, hram, hdesc]⟩

end Step

/-- Slots with the same descriptors are at the same distance from other ranges. -/
theorem SameDescs.apartFrom {n m : Nic} {slots : List ℕ} (h : SameDescs n m slots)
    (hkept : RxKept n m) {target : UInt64} {count : ℕ} (hapart : ApartFrom n slots target count) :
    ApartFrom m slots target count := by
  intro slot hslot
  unfold hasBuffer
  rw [hkept.rxSlotAddr, hkept.rxbufSize, h slot hslot]
  exact hapart slot hslot

/-- The slots that are left stay apart. -/
theorem RxApart.left {n m : Nic} (h : RxApart n) (hkept : RxKept n m)
    (hleft : rxGiven m = leftBy n (rxGiven n)) (hsame : SameDescs n m (leftBy n (rxGiven n))) :
    RxApart m where
  slots i hi hbuffer j hj := by
    rw [hleft] at hi hj
    rw [hasBuffer, hsame i hi] at hbuffer
    rw [hsame i hi, hkept.rxSlotAddr, hkept.rxbufSize]
    exact h.slots i (List.mem_of_mem_drop hi) hbuffer j (List.mem_of_mem_drop hj)
  buffers i hi hbuffer j hj hbuffer' hne := by
    rw [hleft] at hi hj
    rw [hasBuffer, hsame i hi] at hbuffer
    rw [hasBuffer, hsame j hj] at hbuffer'
    rw [hsame i hi, hsame j hj, hkept.rxbufSize]
    exact h.buffers i (List.mem_of_mem_drop hi) hbuffer j (List.mem_of_mem_drop hj) hbuffer' hne

/-- What is reported for packets that arrive one after the other: the size of those that are stored,
and `-1` for the others. -/
def outcomes (n : Nic) (packets : List (List UInt8)) : List (Option ℕ) :=
  ((usable n).zip packets).map (fun entry => some (arriving n entry.2).bytes.length) ++
    List.replicate (packets.length - (usable n).length) none

/-- The packets are in the slots with buffers, in order, and nothing else of guest RAM is written.
Stored packets and refused ones are reported. -/
structure Delivered (n m : Nic) (packets : List (List UInt8)) : Prop where
  kept : RxKept n m
  usable : usable m = (usable n).drop packets.length
  stored : ∀ entry ∈ (Network.usable n).zip packets, StoredIn n m entry.1 (arriving n entry.2)
  frame : ∀ target count, ApartFrom n (rxGiven n) target count → m.ram.read target count =
    n.ram.read target count
  causes : ∀ causes, Raised n.dev causes → Raised m.dev causes
  arrived : Network.usable n ≠ [] → packets ≠ [] → Raised m.dev 0x80
  overrun : (Network.usable n).length < packets.length → Raised m.dev 0x40

/-- A packet takes the first slot with a buffer, if there is one. -/
theorem usable_cases {n m : Nic} (hleft : rxGiven m = leftBy n (rxGiven n))
    (hsame : SameDescs n m (leftBy n (rxGiven n))) :
    ((rxGiven n).any (hasBuffer n) = false ∧ usable n = [] ∧ usable m = []) ∨
      ∃ skipped slot, usedBy n (rxGiven n) = skipped ++ [slot] ∧
        (rxGiven n).any (hasBuffer n) = true ∧
        hasBuffer n slot = true ∧ rxGiven n = skipped ++ slot :: rxGiven m ∧
          usable n = slot :: usable m := by
  have husable : usable m = (leftBy n (rxGiven n)).filter (hasBuffer n) := by
    rw [usable, hleft]
    refine List.filter_congr fun slot hslot => ?_
    rw [hasBuffer, hasBuffer, hsame slot hslot]
  rw [husable, hleft, usable]
  obtain ⟨hany, hnone, hempty⟩ | h := usedBy_cases n (rxGiven n)
  · exact .inl ⟨hany, hnone, by rw [hempty]; rfl⟩
  · exact .inr h

/-- What is reported for the first packet, and for the others. -/
theorem outcomes_cons {n m : Nic} (hkept : RxKept n m) (hleft : rxGiven m = leftBy n (rxGiven n))
    (hsame : SameDescs n m (leftBy n (rxGiven n))) (buf : List UInt8) (bufs : List (List UInt8)) :
    outcomes n (buf :: bufs) =
      (if (rxGiven n).any (hasBuffer n) then some (arriving n buf).bytes.length else none) ::
        outcomes m bufs := by
  have harriving : (fun entry : ℕ × List UInt8 => some (arriving m entry.2).bytes.length) =
      fun entry => some (arriving n entry.2).bytes.length := funext fun entry => by
        rw [hkept.arriving]
  unfold outcomes
  rw [harriving]
  obtain ⟨hany, hnone, hnone'⟩ | ⟨skipped, slot, -, hany, -, -, hcons⟩ := usable_cases hleft hsame
  · rw [hany, hnone, hnone', if_neg Bool.false_ne_true]
    rfl
  · rw [hany, hcons, if_pos rfl, List.zip_cons_cons, List.map_cons, List.length_cons,
      List.length_cons, Nat.add_sub_add_right]
    rfl

/-- A packet that is stored stays when nothing is written there. -/
theorem StoredIn.of_reads {n p m : Nic} {slot : ℕ} {packet : RxPacket}
    (h : StoredIn n p slot packet) (hkept : RxKept n p) (hkept' : RxKept p m)
    (hbytes : m.ram.read (rxDesc n slot).bufferAddr packet.bytes.length =
      p.ram.read (rxDesc n slot).bufferAddr packet.bytes.length)
    (hdesc : m.ram.read (rxSlotAddr n slot) RxDesc.size =
      p.ram.read (rxSlotAddr n slot) RxDesc.size) :
    StoredIn n m slot packet where
  bytes := hbytes.trans h.bytes
  desc := by rw [(hkept.trans hkept').rxDesc_eq, hdesc, ← hkept.rxDesc_eq, h.desc]

/-- A packet that arrives before others is stored before them. -/
theorem Delivered.cons {n p m : Nic} (hready : RxReady n) (hapart : RxApart n) {buf : List UInt8}
    (haccepted : Accepted n buf) {bufs : List (List UInt8)} (hkept : RxKept n p)
    (hleft : rxGiven p = leftBy n (rxGiven n))
    (hram : p.ram = (usedBy n (rxGiven n)).foldl (storeAt n (arriving n buf)) n.ram)
    (hreport : Raised p.dev (reportOf n))
    (hcauses : ∀ causes, Raised n.dev causes → Raised p.dev causes)
    (h : Delivered p m bufs) : Delivered n m (buf :: bufs) := by
  have hlength := haccepted.length_le
  have hsame := sameDescs_left hready hapart hkept hlength hram
  have hframe {target : UInt64} {count : ℕ} (hfrom : ApartFrom n (rxGiven p) target count) :
      m.ram.read target count = p.ram.read target count :=
    h.frame target count ((hleft ▸ hsame).apartFrom hkept hfrom)
  have hcases := usable_cases hleft hsame
  refine ⟨hkept.trans h.kept, ?_, ?_, fun target count hfrom => ?_,
    fun causes hraised => h.causes causes (hcauses causes hraised), fun hsome _ => ?_,
    fun hmany => ?_⟩
  · rw [h.usable]
    obtain ⟨-, hnone, hnone'⟩ | ⟨skipped, slot, -, -, -, -, hcons⟩ := hcases
    · rw [hnone, hnone', List.drop_nil, List.drop_nil]
    · rw [hcons]
      rfl
  · obtain ⟨-, hnone, -⟩ | ⟨skipped, slot, hused, -, hbuffer, hsplit, hcons⟩ := hcases
    · rw [hnone]
      exact fun entry hentry => absurd hentry List.not_mem_nil
    · rw [hcons, List.zip_cons_cons, List.forall_mem_cons]
      constructor
      · have hnodup := rxGiven_nodup hready
        rw [hsplit] at hnodup
        have hslot : slot ∈ rxGiven n := hsplit ▸ List.mem_append_right _ List.mem_cons_self
        have hothers : ∀ other ∈ rxGiven p, other ∈ rxGiven n ∧ slot ≠ other := fun other hother =>
          ⟨hsplit ▸ List.mem_append_right _ (List.mem_cons_of_mem _ hother),
            fun heq => (List.nodup_cons.mp (List.nodup_append.mp hnodup).2.1).1 (heq ▸ hother)⟩
        refine (storedIn_last hapart hkept hlength hram hused hbuffer).of_reads hkept h.kept ?_ ?_
        · exact hframe ((apartFrom_buffer hapart hslot hbuffer hothers).mono hlength)
        · exact hframe (apartFrom_slot hready hapart hslot hothers)
      · intro entry hentry
        have hmem : entry.1 ∈ leftBy n (rxGiven n) := by
          rw [← hleft]
          exact List.mem_of_mem_filter (List.of_mem_zip hentry).1
        have hstored := h.stored entry hentry
        rw [hkept.arriving] at hstored
        exact ⟨by rw [← hsame _ hmem]; exact hstored.bytes,
          by rw [hstored.desc, hsame _ hmem, hkept.filled]⟩
  · have hused : ApartFrom n (usedBy n (rxGiven n)) target count :=
      fun slot hslot => hfrom slot (mem_of_mem_usedBy hslot)
    rw [hframe fun slot hslot => hfrom slot (List.mem_of_mem_drop (hleft ▸ hslot)), hram,
      read_foldl_storeAt hlength hused]
  · obtain ⟨-, hnone, -⟩ | ⟨_, _, -, hany, -, -, -⟩ := hcases
    · exact absurd hnone hsome
    · rw [reportOf, if_pos hany] at hreport
      exact h.causes _ hreport
  · obtain ⟨hany, -, -⟩ | ⟨_, _, -, -, -, -, hcons⟩ := hcases
    · rw [reportOf, hany, if_neg Bool.false_ne_true] at hreport
      exact h.causes _ hreport
    · rw [hcons] at hmany
      exact h.overrun (Nat.lt_of_succ_lt_succ hmany)

/-- Packets that arrive one after the other are stored in the slots that are given. -/
theorem receiveAll_delivered {fuel : ℕ} {n : Nic} (hready : RxReady n) (hwrap : NoWrap n)
    (hapart : RxApart n) {packets : List (List UInt8)} (haccepted : ∀ buf ∈ packets, Accepted n buf)
    (hfuel : rxSlots n < fuel) :
    ∃ m, receiveAll fuel packets n = .ok (m, outcomes n packets) ∧ Delivered n m packets := by
  induction packets generalizing n with
  | nil =>
    refine ⟨n, ?_, ⟨.refl n, rfl, fun entry hentry => ?_, fun _ _ _ => rfl, fun _ h => h,
      fun _ h => absurd rfl h, fun h => absurd h (Nat.not_lt_zero _)⟩⟩
    · rw [outcomes, List.zip_nil_right, List.length_nil, Nat.zero_sub]
      rfl
    · rw [List.zip_nil_right] at hentry
      exact absurd hentry List.not_mem_nil
  | cons buf bufs ih =>
    have hbuf := haccepted buf List.mem_cons_self
    obtain ⟨p, hfirst, hkept, hready', hwrap', hleft, hram, hreport, hcauses⟩ :=
      e1000Receive_eq hready hwrap hbuf hfuel
    have hsame := sameDescs_left hready hapart hkept hbuf.length_le hram
    have hslots : rxSlots p = rxSlots n := congrArg slotCount (hkept.reg (by decide))
    obtain ⟨m, hrest, hdelivered⟩ := ih hready' hwrap' (hapart.left hkept hleft hsame)
      (fun other hother => (haccepted other (List.mem_cons_of_mem _ hother)).congr hkept)
      (hslots ▸ hfuel)
    refine ⟨m, ?_, hdelivered.cons hready hapart hbuf hkept hleft hram hreport hcauses⟩
    rw [outcomes_cons hkept hleft hsame, receiveAll, hfirst]
    change (receiveAll fuel bufs p).bind _ = _
    rw [hrest]
    rfl

/-- The driver gives slots by writing the tail. -/
def giveSlots (tail : UInt32) (n : Nic) : Nic := n.mapDev (setRdt · MacReg.rdt.index tail)

section Giving

variable {n : Nic} {tail : UInt32}

/-- A tail in the ring is not cut. -/
theorem giveSlots_rdt (htail : tail.toNat < 2 ^ 16) : (giveSlots tail n).reg .rdt = tail := by
  have hcut : tail &&& 0xffff = tail := by
    apply UInt32.toNat_inj.mp
    rw [UInt32.toNat_and]
    exact (Nat.and_two_pow_sub_one_eq_mod tail.toNat 16).trans (Nat.mod_eq_of_lt htail)
  change (E1000State.setMac _ _ (tail &&& 0xffff)).macReg MacReg.rdt.index = tail
  rw [E1000State.setMac_self, hcut]

/-- A write of the tail gives the slots from the head to it, or the whole ring if it is at the head.
-/
theorem rxGiven_giveSlots (htail : tail.toNat < 2 ^ 16) :
    rxGiven (giveSlots tail n) =
      if rxHead n = tail.toNat then Ring.around (rxSlots n) (rxHead n)
      else Ring.between (rxSlots n) (rxHead n) tail.toNat := by
  have hrdt : rxTail (giveSlots tail n) = tail.toNat := congrArg UInt32.toNat (giveSlots_rdt htail)
  have hhead : rxHead (giveSlots tail n) = rxHead n := rfl
  have hslots : rxSlots (giveSlots tail n) = rxSlots n := rfl
  have hover : (giveSlots tail n).dev.checkRxov = false := rfl
  rw [rxGiven, hrdt, hhead, hslots, hover, if_neg Bool.false_ne_true]

end Giving

/-- The driver writes the tail of the receive ring, and packets arrive. Those for which there are
buffers are stored with the slots from the head up to the tail, in order; a tail at the head gives
the whole ring. The others are refused, and nothing but the slots and their buffers is written. -/
theorem receiveAll_giveSlots (fuel : ℕ) (n : Nic) (tail : UInt32) (packets : List (List UInt8))
    (hhead : rxHead n < rxSlots n) (htail : tail.toNat < rxSlots n) (htwo : 2 ≤ rxSlots n)
    (hslots : rxSlots n ≤ 2 ^ 16) (hfuel : rxSlots n < fuel)
    (hbuffers : rxHead n = tail.toNat → ∀ slot < rxSlots n, hasBuffer n slot = true)
    (hapart : RxApart (giveSlots tail n))
    (haccepted : ∀ buf ∈ packets, Accepted (giveSlots tail n) buf) :
    rxGiven (giveSlots tail n) =
        (if rxHead n = tail.toNat then Ring.around (rxSlots n) (rxHead n)
        else Ring.between (rxSlots n) (rxHead n) tail.toNat) ∧
      ∃ m, receiveAll fuel packets (giveSlots tail n) =
        .ok (m, outcomes (giveSlots tail n) packets) ∧
        Delivered (giveSlots tail n) m packets := by
  have hrdt : rxTail (giveSlots tail n) = tail.toNat :=
    congrArg UInt32.toNat (giveSlots_rdt (htail.trans_le hslots))
  have hready : RxReady (giveSlots tail n) := ⟨hhead, hrdt ▸ htail, htwo, hslots⟩
  have hwrap : NoWrap (giveSlots tail n) := fun hmeet =>
    .inr fun slot hslot => hbuffers (hrdt ▸ hmeet) slot (lt_of_mem_rxGiven hready hslot)
  exact ⟨rxGiven_giveSlots (htail.trans_le hslots),
    receiveAll_delivered hready hwrap hapart haccepted hfuel⟩

/-- A ring of eight slots at `0x1000`, whose first and third have buffers of 256 bytes at `0x2000`
and `0x4000`, in a device that takes all packets. -/
def givenBuffers : Nic :=
  let ram := write (fun _ => 0) 0x1000 (leBytes 8 0x2000 ++ List.replicate 24 0 ++ leBytes 8 0x4000)
  let n : Nic := { (default : Nic) with ram := ram }
  ((n.setReg .rdbal 0x1000).setReg .rdlen 128).mapDev (setRxControl · MacReg.rctl.index 0x3000a)

/-- Of three packets the last one is refused. -/
theorem receiveAll_giveSlots_givenBuffers :
    rxGiven (giveSlots 4 givenBuffers) =
        (if rxHead givenBuffers =
          (4 : UInt32).toNat then Ring.around (rxSlots givenBuffers) (rxHead givenBuffers)
        else Ring.between (rxSlots givenBuffers) (rxHead givenBuffers) (4 : UInt32).toNat) ∧
      ∃ m, receiveAll 9 [[1, 2, 3], [4, 5], [6]] (giveSlots 4 givenBuffers) =
          .ok (m, outcomes (giveSlots 4 givenBuffers) [[1, 2, 3], [4, 5], [6]]) ∧
        Delivered (giveSlots 4 givenBuffers) m [[1, 2, 3], [4, 5], [6]] :=
  receiveAll_giveSlots 9 givenBuffers 4 [[1, 2, 3], [4, 5], [6]] (by decide) (by decide)
    (by decide) (by decide)
    (by decide) (by decide) ⟨by unfold Apart; decide +kernel, by unfold Apart; decide +kernel⟩
      fun buf hbuf => by
      have hpasses : ∀ buf ∈ ([[1, 2, 3], [4, 5], [6]] : List (List UInt8)),
          e1000CanReceive (giveSlots 4 givenBuffers).dev = true ∧
            (padded buf).length ≤ (giveSlots 4 givenBuffers).dev.rxbufSize.toNat ∧
            receiveFilter (giveSlots 4 givenBuffers).dev (padded buf) = true := by decide +kernel
      exact ⟨(hpasses buf hbuf).1, (hpasses buf hbuf).2.1, (hpasses buf hbuf).2.2⟩

end VirtualFirmware.Network
