import VirtualFirmware.Network.Sender
import VirtualFirmware.Network.TransmitBatches

/-!
# The transmit ring refines the sender

A write of the tail register has the device take the descriptors up to the tail. If the buffers do
not overlap the status of the descriptors, the device reads what the driver queued, although it
writes the status of one descriptor before it reads the next. It then follows the sender.
-/

namespace VirtualFirmware.Network

open Library Device AddressSpace

/-- The bytes that a descriptor points to. -/
def descBytes (ram : AddressSpace) (dp : TxDesc) : List UInt8 :=
  ram.read dp.bufferAddr dp.splitSize.toNat

/-- The descriptor in a slot with its bytes. -/
def queuedAt (n : Nic) (slot : ℕ) : TxDesc × List UInt8 :=
  (txDescAt n (UInt32.ofNat slot), descBytes n.ram (txDescAt n (UInt32.ofNat slot)))

/-- What the driver has queued in some slots. -/
def queued (n : Nic) (slots : List ℕ) : List (TxDesc × List UInt8) := slots.map (queuedAt n)

/-- The sender takes what is queued. -/
def Sender.run (tags : Tagging) (s : Sender) (queue : List (TxDesc × List UInt8)) : Sender :=
  queue.foldl (fun s entry => s.take tags entry.1 entry.2) s

/-- The driver keeps to the rules in all that is queued. -/
def Sender.AcceptsAll (tags : Tagging) : Sender → List (TxDesc × List UInt8) → Prop
  | _, [] => True
  | s, entry :: rest => s.Accepts tags entry.1 entry.2 ∧
      AcceptsAll tags (s.take tags entry.1 entry.2) rest

/-- The address of the status that is written back to a slot. -/
def statusAddr (n : Nic) (slot : ℕ) : UInt64 := txSlot n (UInt32.ofNat slot) + 12

/-- Guest RAM with the status of some descriptors written. -/
def withStatus (n : Nic) (ram : AddressSpace) (slots : List ℕ) : AddressSpace :=
  slots.foldl (fun ram slot =>
    let dp := txDescAt n (UInt32.ofNat slot)
    if dp.reports then ram.write (statusAddr n slot) (leBytes 4 dp.doneUpper.toNat) else ram) ram

/-- The interrupt causes of some descriptors. -/
def causesOf (n : Nic) (cause : UInt32) (slots : List ℕ) : UInt32 :=
  slots.foldl (fun cause slot => cause ||| txdescCause (txDescAt n (UInt32.ofNat slot))) cause

/-- No buffer overlaps the status of a descriptor. -/
def BuffersApart (n : Nic) (slots : List ℕ) : Prop :=
  ∀ i ∈ slots, ∀ j ∈ slots, Apart (txDescAt n (UInt32.ofNat j)).bufferAddr
    (txDescAt n (UInt32.ofNat j)).splitSize.toNat (statusAddr n i) 4

/-- The slots of the transmit ring are records that follow each other. -/
theorem txSlot_ofNat (n : Nic) {slot : ℕ} (hslot : slot < 2 ^ 16) :
    txSlot n (UInt32.ofNat slot) =
      recordAt TxDesc.size ((n.reg .tdbah).toUInt64 <<< 32 + (n.reg .tdbal).toUInt64) slot := by
  rw [txSlot, add_mul_eq_recordAt, UInt32.toNat_toUInt64, UInt32.toNat_ofNat',
    Nat.mod_eq_of_lt (by omega)]

/-- The status of a descriptor is no part of another one. -/
theorem slot_apart_status (n : Nic) {i j : ℕ} (hi : i < 2 ^ 16) (hj : j < 2 ^ 16) (hne : i ≠ j) :
    Apart (txSlot n (UInt32.ofNat j)) TxDesc.size (statusAddr n i) 4 := by
  have hfits (slot : ℕ) (hslot : slot < 2 ^ 16) : TxDesc.size * (slot + 1) ≤ 2 ^ 63 := by
    unfold TxDesc.size
    omega
  rw [statusAddr, txSlot_ofNat n hi, txSlot_ofNat n hj]
  exact recordAt_apart_part _ (hfits j hj) (hfits i hi) hne.symm (by decide : 12 + 4 ≤ TxDesc.size)

/-- Another device sees the same descriptors and bytes in some slots, and the same registers. -/
structure SameQueue (n m : Nic) (slots : List ℕ) : Prop where
  ring : SameRing n m
  descs : ∀ slot ∈ slots, txDescAt m (UInt32.ofNat slot) = txDescAt n (UInt32.ofNat slot)
  bytes : ∀ slot ∈ slots, descBytes m.ram (txDescAt n (UInt32.ofNat slot)) =
    descBytes n.ram (txDescAt n (UInt32.ofNat slot))

/-- The slots are at the same addresses. -/
theorem SameRing.txSlot {n m : Nic} (h : SameRing n m) (index : UInt32) :
    Network.txSlot m index = Network.txSlot n index := by
  rw [Network.txSlot, Network.txSlot, h .tdbah (by decide) (by decide),
    h .tdbal (by decide) (by decide)]

/-- VLAN tags are inserted in the same way. -/
theorem SameRing.taggingOf {n m : Nic} (h : SameRing n m) :
    Network.taggingOf m = Network.taggingOf n := by
  have hctrl : m.dev.macReg MacReg.ctrl.index = n.dev.macReg MacReg.ctrl.index :=
    h .ctrl (by decide) (by decide)
  have hvet : m.dev.macReg MacReg.vet.index = n.dev.macReg MacReg.vet.index :=
    h .vet (by decide) (by decide)
  rw [Network.taggingOf, Network.taggingOf, vlanEnabled, vlanEnabled, vlanType, vlanType,
    hctrl, hvet]

/-- Only the transmit context and the packets matter. -/
theorem Simulates.of_eq {s : Sender} {n m : Nic} (h : Simulates s n) (htx : m.dev.tx = n.dev.tx)
    (hunsaved : m.txUnsaved = n.txUnsaved) (hsent : m.sent = n.sent) : Simulates s m := by
  unfold Simulates at h ⊢
  split
  · rename_i hseg
    rw [if_pos hseg] at h
    exact ⟨htx ▸ h.context, hunsaved.trans h.unsaved, htx ▸ h.size, htx ▸ h.data, htx ▸ h.header,
      htx ▸ h.frames, hsent.trans h.sent⟩
  · rename_i hseg
    rw [if_neg hseg] at h
    exact ⟨htx ▸ h.context, hunsaved.trans h.unsaved, htx ▸ h.size, htx ▸ h.data, htx ▸ h.frames,
      hsent.trans h.sent⟩

/-- Writing the status of one descriptor leaves the others and the buffers. -/
theorem SameQueue.write_status {n m m' : Nic} {slot : ℕ} {rest : List ℕ}
    (h : SameQueue n m (slot :: rest)) (hring : SameRing n m')
    (hram : m'.ram = withStatus n m.ram [slot]) (hdistinct : slot ∉ rest)
    (hslots : ∀ i ∈ slot :: rest, i < 2 ^ 16) (hapart : BuffersApart n (slot :: rest)) :
    SameQueue n m' rest := by
  have hread {target : UInt64} {count : ℕ} (h : Apart target count (statusAddr n slot) 4) :
      m'.ram.read target count = m.ram.read target count := by
    rw [hram]
    change AddressSpace.read (if _ then _ else _) target count = _
    split
    · exact read_write_of_apart (by rwa [leBytes_length]) _
    · rfl
  refine ⟨hring, fun j hj => ?_, fun j hj => ?_⟩
  · have hne : slot ≠ j := fun heq => hdistinct (heq ▸ hj)
    rw [← h.descs j (List.mem_cons_of_mem _ hj), txDescAt, txDescAt, hring.txSlot, h.ring.txSlot,
      hread (slot_apart_status n (hslots slot List.mem_cons_self)
        (hslots j (List.mem_cons_of_mem _ hj)) hne)]
  · rw [← h.bytes j (List.mem_cons_of_mem _ hj), descBytes, descBytes,
      hread (hapart slot List.mem_cons_self j (List.mem_cons_of_mem _ hj))]

/-- Writing a descriptor back stores its status, if it asks for that. -/
theorem txdescWriteback_ram (base : UInt64) (dp : TxDesc) (n : Nic) :
    (txdescWriteback base dp n).ram =
      if dp.reports then n.ram.write (base + 12) (leBytes 4 dp.doneUpper.toNat) else n.ram := by
  unfold txdescWriteback
  split <;> rfl

/-- It changes nothing else. -/
theorem txdescWriteback_rest (base : UInt64) (dp : TxDesc) (n : Nic) :
    (txdescWriteback base dp n).dev.tx = n.dev.tx ∧
      (txdescWriteback base dp n).txUnsaved = n.txUnsaved ∧
      (txdescWriteback base dp n).sent = n.sent := by
  unfold txdescWriteback
  split <;> exact ⟨rfl, rfl, rfl⟩

/-- Taking a slot is a step of the sender. -/
theorem takeSlot_simulates {s : Sender} {n m : Nic} {slot : ℕ} {rest : List ℕ}
    (hsim : Simulates s m) (hqueue : SameQueue n m (slot :: rest)) (hdistinct : slot ∉ rest)
    (hslots : ∀ i ∈ slot :: rest, i < 2 ^ 16)
    (hapart : BuffersApart n (slot :: rest)) {fuel : ℕ} (hfuel : 2 ^ 16 ≤ fuel) (cause : UInt32)
    (haccepts : s.Accepts (taggingOf n) (queuedAt n slot).1 (queuedAt n slot).2) :
    ∃ m', takeSlot fuel (m, cause) (UInt32.ofNat slot) = .ok (m', causesOf n cause [slot]) ∧
      Simulates (s.take (taggingOf n) (queuedAt n slot).1 (queuedAt n slot).2) m' ∧
      SameQueue n m' rest ∧ m'.ram = withStatus n m.ram [slot] := by
  have hentry : queuedAt m slot = queuedAt n slot := by
    rw [queuedAt, queuedAt, hqueue.descs slot List.mem_cons_self,
      hqueue.bytes slot List.mem_cons_self]
  have hdesc := hqueue.descs slot List.mem_cons_self
  have htags := hqueue.ring.taggingOf
  rw [← hentry, ← htags] at haccepts ⊢
  obtain ⟨p, hprocessed, hsim'⟩ :=
    hsim.processTxDesc hfuel (txDescAt m (UInt32.ofNat slot)) haccepts
  have hkept := processTxDesc_kept fuel _ m p hprocessed
  let written := txdescWriteback (txSlot m (UInt32.ofNat slot)) (txDescAt m (UInt32.ofNat slot)) p
  let moved := written.setReg .tdh (nextSlot (written.reg .tdlen) (UInt32.ofNat slot))
  have htaken : takeSlot fuel (m, cause) (UInt32.ofNat slot) =
      .ok (moved, causesOf n cause [slot]) := by
    have hcause : causesOf n cause [slot] =
        cause ||| txdescCause (txDescAt m (UInt32.ofNat slot)) := by
      rw [hdesc]
      rfl
    rw [hcause, takeSlot]
    dsimp only
    rw [hprocessed]
    rfl
  have hram : moved.ram = withStatus n m.ram [slot] := by
    refine (txdescWriteback_ram _ _ p).trans ?_
    rw [hkept.ram, hdesc, hqueue.ring.txSlot]
    rfl
  have hring := hqueue.ring.trans (takeSlot_moves fuel (m, cause) (UInt32.ofNat slot) _ htaken).1
  obtain ⟨htx, hunsaved, hsent⟩ := txdescWriteback_rest (txSlot m (UInt32.ofNat slot))
    (txDescAt m (UInt32.ofNat slot)) p
  exact ⟨moved, htaken, hsim'.of_eq htx hunsaved hsent,
    hqueue.write_status hring hram hdistinct hslots hapart, hram⟩

/-- Fewer slots are apart as well. -/
theorem BuffersApart.tail {n : Nic} {slot : ℕ} {rest : List ℕ} (h : BuffersApart n (slot :: rest)) :
    BuffersApart n rest :=
  fun i hi j hj => h i (List.mem_cons_of_mem _ hi) j (List.mem_cons_of_mem _ hj)

/-- Taking several slots is a run of the sender. -/
theorem takeSlots_simulates {n : Nic} {slots : List ℕ} (hdistinct : slots.Nodup)
    (hslots : ∀ i ∈ slots, i < 2 ^ 16) (hapart : BuffersApart n slots) {fuel : ℕ}
    (hfuel : 2 ^ 16 ≤ fuel)
    {s : Sender} {m : Nic} (hsim : Simulates s m) (hqueue : SameQueue n m slots) (cause : UInt32)
    (haccepts : s.AcceptsAll (taggingOf n) (queued n slots)) :
    ∃ m', takeSlots fuel slots (m, cause) = .ok (m', causesOf n cause slots) ∧
      Simulates (s.run (taggingOf n) (queued n slots)) m' ∧ m'.ram = withStatus n m.ram slots := by
  induction slots generalizing s m cause with
  | nil => exact ⟨m, rfl, hsim, rfl⟩
  | cons slot rest ih =>
    obtain ⟨hnew, hrest⟩ := List.nodup_cons.mp hdistinct
    obtain ⟨next, htaken, hnext, hqueue', hram⟩ :=
      takeSlot_simulates hsim hqueue hnew hslots hapart hfuel cause haccepts.1
    obtain ⟨last, hlast, hend, hram'⟩ :=
      ih hrest (fun i hi => hslots i (List.mem_cons_of_mem _ hi)) hapart.tail
      hnext hqueue' (causesOf n cause [slot]) haccepts.2
    refine ⟨last, ?_, hend, ?_⟩
    · rw [takeSlots_cons, htaken]
      exact hlast
    · rw [hram', hram]
      rfl

/-- The slots up to the tail. -/
def pendingSlots (n : Nic) (tail : UInt32) : List ℕ :=
  Ring.between (txSlots n) (txHead n) tail.toNat

/-- A write of the tail register is a run of the sender. -/
theorem setTctl_simulates {n : Nic} {tail : UInt32} (hready : RingReady n)
    (htail : tail.toNat < txSlots n) {fuel : ℕ} (hfuel : 2 ^ 16 ≤ fuel) {s : Sender}
    (hsim : Simulates s n)
    (haccepts : s.AcceptsAll (taggingOf n) (queued n (pendingSlots n tail)))
    (hapart : BuffersApart n (pendingSlots n tail)) :
    ∃ n', setTctl fuel MacReg.tdt.index tail n = .ok n' ∧
      Simulates (s.run (taggingOf n) (queued n (pendingSlots n tail))) n' ∧
      n'.ram = withStatus n n.ram (pendingSlots n tail) ∧ txHead n' = tail.toNat := by
  have hslots (i : ℕ) (hi : i ∈ pendingSlots n tail) : i < 2 ^ 16 :=
    (Ring.lt_of_mem_between (txSlots_pos n) hi).trans_le hready.slots
  have hqueue : SameQueue n n (pendingSlots n tail) := ⟨.refl n, fun _ _ => rfl, fun _ _ => rfl⟩
  obtain ⟨m, htaken, hrun, hram⟩ :=
    takeSlots_simulates (Ring.between_nodup _ _ _) hslots hapart hfuel hsim hqueue
    2 haccepts
  refine ⟨finishBatch tail (m, causesOf n 2 (pendingSlots n tail)), ?_, hrun.of_eq rfl rfl rfl,
    hram, (takeSlots_finishBatch hready htail fuel _ htaken).2.2⟩
  rw [setTctl_tail hready htail (hready.slots.trans hfuel)]
  exact congrArg (Except.map _) htaken

/-- A driver that keeps to the rules writes the tail register: the device reads what is queued and
follows the sender, also when the last packet is not complete. It writes nothing but the status of
the descriptors to guest RAM. -/
theorem setTctl_refines_sender (fuel : ℕ) (n : Nic) (s : Sender) (tail : UInt32)
    (hready : RingReady n) (htail : tail.toNat < txSlots n) (hfuel : 2 ^ 16 ≤ fuel)
    (hsim : Simulates s n)
    (haccepts : s.AcceptsAll (taggingOf n) (queued n (pendingSlots n tail)))
    (hapart : BuffersApart n (pendingSlots n tail)) :
    ∃ n', setTctl fuel MacReg.tdt.index tail n = .ok n' ∧
      Simulates (s.run (taggingOf n) (queued n (pendingSlots n tail))) n' ∧
      ((s.run (taggingOf n) (queued n (pendingSlots n tail))).packet = [] →
        n'.sent = (s.run (taggingOf n) (queued n (pendingSlots n tail))).sent) ∧
      n'.ram = withStatus n n.ram (pendingSlots n tail) ∧ txHead n' = tail.toNat := by
  obtain ⟨n', htaken, hrun, hram, hhead⟩ :=
    setTctl_simulates hready htail hfuel hsim haccepts hapart
  exact ⟨n', htaken, hrun, fun hpacket => ((simulates_of_packet_nil hpacket).mp hrun).sent,
    hram, hhead⟩

/-- The sender before the first packet. -/
def idleSender : Sender := ⟨(default : Nic).dev.tx, (default : Nic).txUnsaved, [], []⟩

/-- What is queued in the three slots of `enabledRing`: the context and the two halves of a
packet. -/
def segmentedQueue : List (TxDesc × List UInt8) :=
  [(⟨0, 0x24000000, 0x00060e00⟩, []),
    (⟨0x2000, 0x2410000a, 0⟩, [0, 1, 2, 3, 4, 5, 6, 7, 8, 9]),
    (⟨0x200a, 0x2d100014, 0⟩, [10, 11, 12, 13, 14, 15, 16, 17, 18, 19, 20, 21, 22, 23, 24, 25, 26,
      27, 28, 29])]

/-- The packet of thirty bytes is sent in three segments: each has the header of fourteen bytes, and
the payload is cut after six bytes. -/
theorem setTctl_refines_sender_enabledRing :
    ∃ n', setTctl (2 ^ 16) MacReg.tdt.index 1 enabledRing = .ok n' ∧
      n'.sent.map (fun frame => (frame.length, frame.drop 14)) =
        [(20, [14, 15, 16, 17, 18, 19]), (20, [20, 21, 22, 23, 24, 25]), (18, [26, 27, 28, 29])] ∧
      n'.ram = withStatus enabledRing enabledRing.ram [6, 7, 0] ∧ txHead n' = 1 := by
  have hpending : pendingSlots enabledRing 1 = [6, 7, 0] := by decide
  have hqueued : queued enabledRing [6, 7, 0] = segmentedQueue := by decide +kernel
  have htags : taggingOf enabledRing = ⟨false, 0⟩ := rfl
  have haccepts : idleSender.AcceptsAll ⟨false, 0⟩ segmentedQueue := by
    have hloaded : CutsSegments (idleSender.run ⟨false, 0⟩ (segmentedQueue.take 2)).context
        (idleSender.run ⟨false, 0⟩ (segmentedQueue.take 2)).options :=
      ⟨by decide, by decide, by decide,
        ⟨fun _ => by decide, fun _ => by decide, fun _ => by decide, fun h => absurd h (by decide)⟩⟩
    exact ⟨rfl, ⟨hloaded, fun hpacket => absurd rfl hpacket⟩,
      ⟨hloaded, fun _ => ⟨rfl, rfl⟩⟩, trivial⟩
  obtain ⟨n', hreturns, -, hsent, hram, hhead⟩ :=
    setTctl_refines_sender (2 ^ 16) enabledRing idleSender 1 ⟨by decide, by decide, by decide⟩
      (by decide) (Nat.le_refl _) ((simulates_of_packet_nil rfl).mpr ⟨rfl, rfl, rfl, rfl, rfl, rfl⟩)
      (by rw [hpending, hqueued, htags]; exact haccepts)
      (by rw [hpending]; unfold BuffersApart Apart; decide +kernel)
  rw [hpending, hqueued, htags] at hsent
  rw [hpending] at hram
  refine ⟨n', hreturns, ?_, hram, hhead⟩
  rw [hsent (by decide +kernel)]
  decide +kernel

end VirtualFirmware.Network
