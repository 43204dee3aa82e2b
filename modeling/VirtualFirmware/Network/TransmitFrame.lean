import VirtualFirmware.Network.Transmit

/-!
# What the transmit path changes

Processing a descriptor is a number of changes of the transmit context and of packets that are sent.
So it changes the transmit context, the statistics of what was sent and the packets themselves, and
nothing else.
-/

namespace VirtualFirmware.Network

open Library Device

/-- The registers that count what was sent. -/
def sentCounters : List MacReg := [.tpt, .gptc, .totl, .toth]

/-- The register with this index counts nothing. -/
def Uncounted (index : ℕ) : Prop := ∀ reg ∈ sentCounters, index ≠ reg.index

instance (index : ℕ) : Decidable (Uncounted index) :=
  inferInstanceAs (Decidable (∀ reg ∈ sentCounters, index ≠ reg.index))

/-- Everything but the transmit context, the packets, the statistics and guest RAM is as before. -/
structure KeptButRam (n n' : Nic) : Prop where
  regs : ∀ index, Uncounted index → n'.dev.macReg index = n.dev.macReg index
  dev : { n'.dev with macReg := n.dev.macReg, tx := n.dev.tx } = n.dev
  heap : n'.heap = n.heap
  trace : n'.trace = n.trace

/-- Everything but the transmit context, the packets and the statistics is as before. -/
structure Kept (n n' : Nic) : Prop extends KeptButRam n n' where
  ram : n'.ram = n.ram

namespace KeptButRam

variable {n n' n'' : Nic}

/-- A card keeps everything of itself. -/
theorem refl (n : Nic) : KeptButRam n n := ⟨fun _ _ => rfl, rfl, rfl, rfl⟩

/-- Two steps that keep everything but the transmit state and RAM keep it together. -/
theorem trans (h : KeptButRam n n') (h' : KeptButRam n' n'') : KeptButRam n n'' where
  regs index hindex := (h'.regs index hindex).trans (h.regs index hindex)
  dev := by rw [← h.dev, ← h'.dev]
  heap := h'.heap.trans h.heap
  trace := h'.trace.trans h.trace

/-- A register that counts nothing is as before. -/
theorem reg (h : KeptButRam n n') {reg : MacReg} (hreg : Uncounted reg.index) :
    n'.reg reg = n.reg reg :=
  h.regs _ hreg

end KeptButRam

namespace Kept

variable {n n' n'' : Nic}

/-- A card keeps everything of itself, RAM included. -/
theorem refl (n : Nic) : Kept n n := ⟨.refl n, rfl⟩

/-- Two steps that keep RAM and everything but the transmit state keep it together. -/
theorem trans (h : Kept n n') (h' : Kept n' n'') : Kept n n'' :=
  ⟨h.toKeptButRam.trans h'.toKeptButRam, h'.ram.trans h.ram⟩

/-- The transmit context may change. -/
theorem mapTx (h : Kept n n') (f : E1000Tx → E1000Tx) : Kept n (n'.mapTx f) :=
  ⟨⟨h.regs, h.dev, h.heap, h.trace⟩, h.ram⟩

/-- The unsaved part of the context may change. -/
theorem mapUnsaved (h : Kept n n') (f : TxUnsaved → TxUnsaved) : Kept n (n'.mapUnsaved f) :=
  ⟨⟨h.regs, h.dev, h.heap, h.trace⟩, h.ram⟩

end Kept

/-- Counting changes no other register. -/
theorem countSent_macReg (s : E1000State) {index : ℕ} (h : Uncounted index) :
    (countSent s).macReg index = s.macReg index := by
  simp only [Uncounted, sentCounters, List.forall_mem_cons] at h
  obtain ⟨htpt, hgptc, htotl, htoth, -⟩ := h
  unfold countSent
  dsimp only
  split <;> simp only [E1000State.setMac_of_ne, ne_eq, htpt, hgptc, htotl, htoth, not_false_eq_true]

/-- Counting changes registers only. -/
theorem countSent_dev (s : E1000State) : { countSent s with macReg := s.macReg } = s := by
  unfold countSent
  dsimp only
  split <;> rfl

/-- Sending a packet changes the context, the packets and the statistics. -/
theorem xmitSeg_kept (n : Nic) : Kept n (xmitSeg n) := by
  have hcount (s : E1000State) : { countSent s with macReg := n.dev.macReg, tx := n.dev.tx } =
      { s with macReg := n.dev.macReg, tx := n.dev.tx } := by
    conv_rhs => rw [← countSent_dev s]
  exact ⟨⟨fun _ hindex => countSent_macReg _ hindex, hcount _, rfl, rfl⟩, rfl⟩

/-- What processing descriptors consists of: the context changes, and packets are sent. -/
inductive TxWork (n : Nic) : Nic → Prop
  | start : TxWork n n
  | context {m : Nic} (work : TxWork n m) (f : E1000Tx → E1000Tx) : TxWork n (m.mapTx f)
  | unsaved {m : Nic} (work : TxWork n m) (f : TxUnsaved → TxUnsaved) : TxWork n (m.mapUnsaved f)
  | send {m : Nic} (work : TxWork n m) : TxWork n (xmitSeg m)

namespace TxWork

variable {n n' n'' : Nic}

/-- Two pieces of transmit work are one. -/
theorem trans (h : TxWork n n') (h' : TxWork n' n'') : TxWork n n'' := by
  induction h' with
  | start => exact h
  | context _ f ih => exact ih.context f
  | unsaved _ f ih => exact ih.unsaved f
  | send _ ih => exact ih.send

/-- Whichever branch is taken is transmit work, if both are. -/
theorem ite {first second : Nic} {check : Prop} [Decidable check] (hfirst : TxWork n first)
    (hsecond : TxWork n second) : TxWork n (if check then first else second) := by
  split
  · exact hfirst
  · exact hsecond

/-- The work keeps everything else. -/
theorem kept (h : TxWork n n') : Kept n n' := by
  induction h with
  | start => exact Kept.refl n
  | context _ f ih => exact ih.mapTx f
  | unsaved _ f ih => exact ih.mapUnsaved f
  | send _ ih => exact ih.trans (xmitSeg_kept _)

end TxWork

/-- Reading data is transmit work. -/
theorem readData_work (addr : UInt64) (bytes : UInt32) (n : Nic) :
    Ensures (TxWork n) (readData addr bytes n) := by
  unfold readData
  split
  · exact Ensures.ok (.context .start _)
  · exact Ensures.error _

/-- Adding bytes to a segment is transmit work. -/
theorem addBytes_work (bytes : UInt32) (n : Nic) : TxWork n (addBytes bytes n) := by
  unfold addBytes Nic.setSize
  exact .context (.ite (.context .start _) .start) _

/-- Growing a segment, which may send it, is transmit work. -/
theorem growSegment_work (bytes : UInt32) (n : Nic) : TxWork n (growSegment bytes n) :=
  .ite ((addBytes_work bytes n).send.context _) (addBytes_work bytes n)

/-- A round of the segmentation is transmit work. -/
theorem segmentRound_work (n : Nic) (s : UInt64 × UInt32 × Nic) (h : TxWork n s.2.2) :
    Ensures (Sum.elim (fun s' => TxWork n s'.2.2) (TxWork n)) (segmentRound s) := by
  refine (readData_work s.1 _ s.2.2).bind fun n' hread => ?_
  have hgrown := (h.trans hread).trans (growSegment_work (segmentBytes s.2.2.dev.tx s.2.1) n')
  split
  · exact Ensures.ok hgrown
  · exact Ensures.ok hgrown

/-- Taking the bytes of a descriptor is transmit work. -/
theorem takeBytes_work (fuel : ℕ) (addr : UInt64) (splitSize : UInt32) (n : Nic) :
    Ensures (TxWork n) (takeBytes fuel addr splitSize n) := by
  unfold takeBytes
  split
  · exact loop_ensures (fun s => TxWork n s.2.2) (TxWork n) (segmentRound_work n) .start fuel
  · split
    · exact Ensures.ok .start
    · exact (readData_work addr splitSize n).map fun n' hread => hread.context _

/-- The end of a packet is transmit work. -/
theorem endPacket_work (n : Nic) : TxWork n (endPacket n) := by
  unfold endPacket clearPacket
  exact .unsaved (.context (.ite .start (.send .start)) _) _

/-- Processing a descriptor is transmit work. -/
theorem processTxDesc_work (fuel : ℕ) (dp : TxDesc) (n : Nic) :
    Ensures (TxWork n) (processTxDesc fuel dp n) := by
  unfold processTxDesc
  split
  · exact Ensures.ok (.unsaved (.context .start _) _)
  · have hoptions : TxWork n (loadVlan dp (loadPopts dp n)) :=
      .unsaved (.unsaved (.context .start _) _) _
    refine (takeBytes_work fuel _ _ _).map fun n' htaken => ?_
    exact .ite ((hoptions.trans htaken).trans (endPacket_work n')) (hoptions.trans htaken)

/-- Processing a descriptor keeps everything else. -/
theorem processTxDesc_kept (fuel : ℕ) (dp : TxDesc) (n : Nic) :
    Ensures (Kept n) (processTxDesc fuel dp n) :=
  (processTxDesc_work fuel dp n).mono fun _ => TxWork.kept

/-- What `start_xmit` does before it raises interrupts: descriptors are processed, their status is
written to guest RAM, and the head moves. -/
inductive RingWork (n : Nic) : Nic → Prop
  | start : RingWork n n
  | process {m m' : Nic} (work : RingWork n m) (h : TxWork m m') : RingWork n m'
  | writeBack {m : Nic} (work : RingWork n m) (ram : AddressSpace) :
      RingWork n { m with ram := ram }
  | move {m : Nic} (work : RingWork n m) (head : UInt32) : RingWork n (m.setReg .tdh head)

namespace RingWork

variable {n n' : Nic} (h : RingWork n n')
include h

/-- The registers are as before, up to the head of the ring and the statistics. -/
theorem macReg {index : ℕ} (hindex : Uncounted index) (hhead : index ≠ MacReg.tdh.index) :
    n'.dev.macReg index = n.dev.macReg index := by
  induction h with
  | start => rfl
  | process _ hwork ih => exact (hwork.kept.regs index hindex).trans ih
  | writeBack _ _ ih => exact ih
  | move _ _ ih => exact (E1000State.setMac_of_ne _ _ hhead).trans ih

/-- The rest of the device is as before, up to the transmit context. -/
theorem dev : { n'.dev with macReg := n.dev.macReg, tx := n.dev.tx } = n.dev := by
  induction h with
  | start => rfl
  | process _ hwork ih =>
    rw [← hwork.kept.dev] at ih
    exact ih
  | writeBack _ _ ih => exact ih
  | move _ _ ih => exact ih

end RingWork

/-- Taking a slot is work on the ring. -/
theorem takeSlot_work (fuel : ℕ) {n : Nic} {s : Nic × UInt32} (h : RingWork n s.1)
    (index : UInt32) :
    Ensures (fun s' => RingWork n s'.1) (takeSlot fuel s index) := by
  refine (processTxDesc_work fuel _ s.1).map fun m hwork => .move ?_ _
  unfold txdescWriteback
  split
  · exact .writeBack (.process h hwork) _
  · exact .process h hwork

/-- A round of `start_xmit` is work on the ring. -/
theorem xmitRound_work (fuel : ℕ) (tdhStart : UInt32) {n : Nic} (s : Nic × UInt32)
    (h : RingWork n s.1) :
    Ensures (Sum.elim (fun s' => RingWork n s'.1) (fun s' => RingWork n s'.1))
      (xmitRound fuel tdhStart s) := by
  unfold xmitRound
  split
  · exact Ensures.ok h
  · refine (takeSlot_work fuel h _).map fun s' hwork => ?_
    split
    · exact hwork
    · exact hwork

/-- `start_xmit` does nothing, or some work after which it raises interrupts. -/
theorem startXmit_work (fuel : ℕ) (n : Nic) :
    Ensures (fun n' => n' = n ∨ ∃ m causes, RingWork n m ∧ n' = m.mapDev (setIcs · 0 causes))
      (startXmit fuel n) := by
  unfold startXmit
  split
  · exact Ensures.ok (.inl rfl)
  · refine (loop_ensures (fun s => RingWork n s.1) (fun s => RingWork n s.1) (xmitRound_work fuel _)
      ?_ fuel).map ?_
    · exact .start
    · exact fun s hwork => .inr ⟨s.1, s.2, hwork, rfl⟩

end VirtualFirmware.Network
