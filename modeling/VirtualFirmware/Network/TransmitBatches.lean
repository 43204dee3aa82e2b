import VirtualFirmware.Device.Interrupts
import VirtualFirmware.Network.TransmitRing

/-!
# Transmissions in one or several batches

A guest that has several descriptors ready may write the tail register once, or after each of them.
Taking slots commutes with what happens to the rest of the device in between, so the packets, guest
RAM and the device are the same in the end.
-/

namespace VirtualFirmware.Network

open Library Device

/-- The registers that taking a slot writes. -/
def txWritten : List MacReg := .tdh :: sentCounters

/-- The registers that taking a slot reads. -/
def txRead : List MacReg := [.ctrl, .vet, .tdlen, .tdbah, .tdbal] ++ sentCounters

/-- A change of the device that the transmit path neither sees nor disturbs. -/
structure Outside (g : E1000State → E1000State) : Prop where
  tx : ∀ s, (g s).tx = s.tx
  withTx : ∀ s tx, g (Network.withTx s tx) = Network.withTx (g s) tx
  macReg : ∀ s, ∀ reg ∈ txRead, (g s).macReg reg.index = s.macReg reg.index
  setMac : ∀ s, ∀ reg ∈ txWritten, ∀ value, g (s.setMac reg.index value) =
    (g s).setMac reg.index value

namespace Outside

variable {g : E1000State → E1000State} (hg : Outside g) (n : Nic)
include hg

/-- Two changes outside the transmission are one. -/
theorem comp {f : E1000State → E1000State} (hf : Outside f) : Outside (f ∘ g) where
  tx s := (hf.tx _).trans (hg.tx s)
  withTx s tx := by rw [Function.comp_apply, hg.withTx, hf.withTx, Function.comp_apply]
  macReg s reg hreg := (hf.macReg _ reg hreg).trans (hg.macReg s reg hreg)
  setMac s reg hreg value := by
    rw [Function.comp_apply, hg.setMac s reg hreg, hf.setMac _ reg hreg, Function.comp_apply]

/-- A register that is read is not changed. -/
theorem reg {reg : MacReg} (hreg : reg ∈ txRead) : (n.mapDev g).reg reg = n.reg reg :=
  hg.macReg _ _ hreg

/-- The transmit context is not changed. -/
theorem dev_tx : (n.mapDev g).dev.tx = n.dev.tx := hg.tx n.dev

/-- Changes of the transmit context commute. -/
theorem mapTx (f : E1000Tx → E1000Tx) : (n.mapDev g).mapTx f = (n.mapTx f).mapDev g := by
  have hdev : Network.withTx (g n.dev) (f (g n.dev).tx) =
      g (Network.withTx n.dev (f n.dev.tx)) := by
    rw [hg.withTx, hg.tx]
  simp only [Nic.mapTx, Nic.mapDev, hdev]

/-- Counting commutes. -/
theorem countSent (s : E1000State) : Network.countSent (g s) = g (Network.countSent s) := by
  have hset (s : E1000State) {reg : MacReg} (hreg : reg ∈ txWritten) (value : UInt32) :
      (g s).setMac reg.index value = g (s.setMac reg.index value) :=
      (hg.setMac s reg hreg value).symm
  have hread (s : E1000State) {reg : MacReg} (hreg : reg ∈ txRead) :
      (g s).macReg reg.index = s.macReg reg.index := hg.macReg s reg hreg
  unfold Network.countSent
  dsimp only
  rw [hread s (by decide : MacReg.tpt ∈ txRead), hset s (by decide),
    hread _ (by decide : MacReg.gptc ∈ txRead), hset _ (by decide),
    hread _ (by decide : MacReg.totl ∈ txRead), hg.tx, hset _ (by decide),
    hread _ (by decide : MacReg.totl ∈ txRead), hread _ (by decide : MacReg.toth ∈ txRead),
    hset _ (by decide)]
  split <;> rfl

/-- The packet that is sent is the same. -/
theorem outPacket : Network.outPacket (n.mapDev g) = Network.outPacket n := by
  unfold Network.outPacket completedData
  rw [hg.dev_tx]
  rfl

/-- Sending a packet commutes. -/
theorem xmitSeg : Network.xmitSeg (n.mapDev g) = (Network.xmitSeg n).mapDev g := by
  have hsent : sentTx (n.mapDev g) = sentTx n := by
    funext tp
    unfold sentTx
    rw [hg.outPacket]
    rfl
  have hcount (n : Nic) : (n.mapDev g).mapDev Network.countSent =
      (n.mapDev Network.countSent).mapDev g := by
    simp only [Nic.mapDev, hg.countSent]
  unfold Network.xmitSeg
  rw [hg.outPacket, hsent, hg.mapTx, hcount]
  rfl

/-- Reading data commutes. -/
theorem readData (addr : UInt64) (bytes : UInt32) :
    Network.readData addr bytes (n.mapDev g) =
      (Network.readData addr bytes n).map (·.mapDev g) := by
  unfold Network.readData
  rw [hg.dev_tx, hg.mapTx]
  split <;> rfl

/-- Adding bytes to a segment commutes. -/
theorem addBytes (bytes : UInt32) :
    Network.addBytes bytes (n.mapDev g) = (Network.addBytes bytes n).mapDev g := by
  have hsave (check : Prop) [Decidable check] :
      (if check then saveHeader (n.mapDev g) else n.mapDev g) =
      (if check then saveHeader n else n).mapDev g := by
    split
    · exact hg.mapTx n _
    · rfl
  have hsize (n : Nic) (size : UInt16) : (n.mapDev g).setSize size = (n.setSize size).mapDev g :=
    hg.mapTx n _
  unfold Network.addBytes
  rw [hg.dev_tx]
  dsimp only
  rw [hsave, hsize]

/-- Growing a segment commutes. -/
theorem growSegment (bytes : UInt32) :
    Network.growSegment bytes (n.mapDev g) = (Network.growSegment bytes n).mapDev g := by
  have hrestore (n : Nic) : restoreHeader (n.mapDev g) = (restoreHeader n).mapDev g := hg.mapTx n _
  unfold Network.growSegment
  rw [hg.dev_tx, hg.addBytes, hg.xmitSeg, hrestore]
  dsimp only
  split <;> rfl

/-- A round of the segmentation commutes. -/
theorem segmentRound (s : UInt64 × UInt32 × Nic) :
    Network.segmentRound (s.1, s.2.1, s.2.2.mapDev g) =
      (Network.segmentRound s).map
        (Sum.map (fun s => (s.1, s.2.1, s.2.2.mapDev g)) (·.mapDev g)) := by
  unfold Network.segmentRound
  dsimp only
  rw [hg.dev_tx, hg.readData]
  cases Network.readData s.1 (segmentBytes s.2.2.dev.tx s.2.1) s.2.2 with
  | error stop => rfl
  | ok n =>
    change (if _ then _ else _) = Except.map _ (if _ then _ else _)
    rw [hg.growSegment]
    split <;> rfl

/-- Taking the bytes of a descriptor commutes. -/
theorem takeBytes (fuel : ℕ) (addr : UInt64) (splitSize : UInt32) :
    Network.takeBytes fuel addr splitSize (n.mapDev g) =
      (Network.takeBytes fuel addr splitSize n).map (·.mapDev g) := by
  have hunsaved : (n.mapDev g).txUnsaved = n.txUnsaved := rfl
  unfold Network.takeBytes
  rw [hunsaved, hg.readData]
  split
  · exact loop_map (fun s : UInt64 × UInt32 × Nic => (s.1, s.2.1, s.2.2.mapDev g))
      (fun n : Nic => n.mapDev g)
      hg.segmentRound fuel (addr, splitSize, n)
  split
  · rfl
  cases Network.readData addr splitSize n with
  | error stop => rfl
  | ok n =>
    simp only [Except.map, hg.dev_tx]
    exact congrArg _ (hg.mapTx n _)

/-- The options of a descriptor commute. -/
theorem options (dp : TxDesc) :
    loadVlan dp (loadPopts dp (n.mapDev g)) = (loadVlan dp (loadPopts dp n)).mapDev g := by
  have hpopts : loadPopts dp (n.mapDev g) = (loadPopts dp n).mapDev g := by
    unfold loadPopts
    rw [hg.mapTx]
    rfl
  have henabled (s : E1000State) : vlanEnabled (g s) = vlanEnabled s := by
    unfold vlanEnabled
    rw [hg.macReg s .ctrl (by decide)]
  have htype (s : E1000State) : vlanType (g s) = vlanType s := by
    unfold vlanType
    rw [hg.macReg s .vet (by decide)]
  have hdev (n : Nic) : (n.mapDev g).dev = g n.dev := rfl
  rw [hpopts, loadVlan, hdev, henabled, htype]
  rfl

/-- A context descriptor commutes. -/
theorem loadContext (xp : TxDesc) :
    Network.loadContext xp (n.mapDev g) = (Network.loadContext xp n).mapDev g := by
  unfold Network.loadContext
  rw [hg.mapTx]
  rfl

/-- The end of a packet commutes. -/
theorem endPacket : Network.endPacket (n.mapDev g) = (Network.endPacket n).mapDev g := by
  have hmissing : headerMissing (n.mapDev g) = headerMissing n := by
    unfold headerMissing
    rw [hg.dev_tx]
    rfl
  have hclear (n : Nic) : clearPacket (n.mapDev g) = (clearPacket n).mapDev g := by
    unfold clearPacket
    rw [hg.mapTx]
    rfl
  unfold Network.endPacket
  rw [hmissing, hg.xmitSeg]
  split
  · exact hclear n
  · exact hclear _

/-- Processing a descriptor commutes. -/
theorem processTxDesc (fuel : ℕ) (dp : TxDesc) :
    Network.processTxDesc fuel dp (n.mapDev g) =
      (Network.processTxDesc fuel dp n).map (·.mapDev g) := by
  unfold Network.processTxDesc
  split
  · exact congrArg _ (hg.loadContext n dp)
  rw [hg.options, hg.takeBytes]
  cases Network.takeBytes fuel dp.bufferAddr dp.splitSize (loadVlan dp (loadPopts dp n)) with
  | error stop => rfl
  | ok n =>
    simp only [Except.map, hg.endPacket]
    split <;> rfl

/-- Taking a slot commutes. -/
theorem takeSlot (fuel : ℕ) (cause : UInt32) (index : UInt32) :
    Network.takeSlot fuel (n.mapDev g, cause) index =
      (Network.takeSlot fuel (n, cause) index).map (Prod.map (·.mapDev g) id) := by
  have hslot : txSlot (n.mapDev g) index = txSlot n index := by
    unfold txSlot
    rw [hg.reg n (by decide : MacReg.tdbah ∈ txRead), hg.reg n (by decide : MacReg.tdbal ∈ txRead)]
  have hdesc : txDescAt (n.mapDev g) index = txDescAt n index := by
    unfold txDescAt
    rw [hslot]
    rfl
  have hback (n : Nic) (base : UInt64) (dp : TxDesc) :
      txdescWriteback base dp (n.mapDev g) = (txdescWriteback base dp n).mapDev g := by
    unfold txdescWriteback
    split <;> rfl
  have hset (n : Nic) (value : UInt32) : (n.mapDev g).setReg .tdh value =
      (n.setReg .tdh value).mapDev g := by
    simp only [Nic.setReg, Nic.mapDev, hg.setMac n.dev .tdh (by decide)]
  unfold Network.takeSlot
  dsimp only
  rw [hslot, hdesc, hg.processTxDesc]
  cases Network.processTxDesc fuel (txDescAt n index) n with
  | error stop => rfl
  | ok n' =>
    simp only [Except.map, hback, hg.reg _ (by decide : MacReg.tdlen ∈ txRead), hset]
    rfl

/-- Taking several slots commutes. -/
theorem takeSlots (fuel : ℕ) (slots : List ℕ) (cause : UInt32) :
    Network.takeSlots fuel slots (n.mapDev g, cause) =
      (Network.takeSlots fuel slots (n, cause)).map (Prod.map (·.mapDev g) id) := by
  induction slots generalizing n cause with
  | nil => rfl
  | cons index rest ih =>
    rw [takeSlots_cons, takeSlots_cons, hg.takeSlot]
    cases Network.takeSlot fuel (n, cause) (UInt32.ofNat index) with
    | error stop => rfl
    | ok s => exact ih s.1 s.2

end Outside

/-- A register that taking a slot does not use is outside. -/
theorem outside_setMac {index : ℕ} (hread : ∀ reg ∈ txRead, reg.index ≠ index)
    (hwritten : ∀ reg ∈ txWritten, reg.index ≠ index) (value : UInt32) :
    Outside (·.setMac index value) where
  tx _ := rfl
  withTx _ _ := rfl
  macReg s reg hreg := s.setMac_of_ne value (hread reg hreg)
  setMac s reg hreg w := s.setMac_comm (hwritten reg hreg) w value

/-- Raising interrupts is outside the transmission. -/
theorem outside_setIcs (causes : UInt32) : Outside (setIcs · 0 causes) where
  tx _ := rfl
  withTx _ _ := rfl
  macReg s reg hreg := setInterruptCause_of_ne s _
    ((by decide : ∀ reg ∈ txRead, reg.index ≠ MacReg.icr.index) reg hreg)
    ((by decide : ∀ reg ∈ txRead, reg.index ≠ MacReg.ics.index) reg hreg)
  setMac s reg hreg value := setIcs_setMac s causes
    ((by decide : ∀ reg ∈ txWritten, reg.index ≠ MacReg.icr.index) reg hreg)
    ((by decide : ∀ reg ∈ txWritten, reg.index ≠ MacReg.ics.index) reg hreg)
    ((by decide : ∀ reg ∈ txWritten, reg.index ≠ MacReg.ims.index) reg hreg) value

/-- The causes of the slots are collected beside those that were there. -/
theorem takeSlots_cause (fuel : ℕ) (slots : List ℕ) (n : Nic) (before causes : UInt32) :
    takeSlots fuel slots (n, before ||| causes) =
      (takeSlots fuel slots (n, causes)).map (Prod.map id (before ||| ·)) := by
  induction slots generalizing n causes with
  | nil => rfl
  | cons index rest ih =>
    have hslot : takeSlot fuel (n, before ||| causes) (UInt32.ofNat index) =
        (takeSlot fuel (n, causes) (UInt32.ofNat index)).map (Prod.map id (before ||| ·)) := by
      unfold takeSlot
      dsimp only
      cases processTxDesc fuel (txDescAt n (UInt32.ofNat index)) n with
      | error stop => rfl
      | ok n' => simp only [Except.map, Prod.map, id, UInt32.or_assoc]
    rw [takeSlots_cons, takeSlots_cons, hslot]
    cases takeSlot fuel (n, causes) (UInt32.ofNat index) with
    | error stop => rfl
    | ok s => exact ih s.1 s.2

/-- Taking the slots of two lists is taking those of the first and then those of the second. -/
theorem takeSlots_append (fuel : ℕ) (first second : List ℕ) (s : Nic × UInt32) :
    takeSlots fuel (first ++ second) s = takeSlots fuel first s >>= takeSlots fuel second :=
  List.foldlM_append

/-- The tail register is written and the interrupts are due, behind the slots of a batch. -/
def finishBatch (tail : UInt32) (s : Nic × UInt32) : Nic := raiseCause (s.1.setReg .tdt tail, s.2)

/-- Assigning the tail is outside the transmission. -/
theorem outside_tail (tail : UInt32) : Outside (·.setMac MacReg.tdt.index tail) :=
  outside_setMac (by decide) (by decide) tail

/-- The end of a batch assigns the tail and raises the causes. -/
theorem finishBatch_eq (tail : UInt32) (s : Nic × UInt32) :
    finishBatch tail s = s.1.mapDev ((setIcs · 0 s.2) ∘ (·.setMac MacReg.tdt.index tail)) := rfl

/-- The ends of two batches are one that raises the causes of both. -/
theorem finishBatch_finishBatch (first second : UInt32) (n : Nic) (causes more : UInt32) :
    finishBatch second (finishBatch first (n, causes), more) =
      finishBatch second (n, causes ||| more) := by
  have hdev (s : E1000State) :
      setIcs ((setIcs (s.setMac MacReg.tdt.index first) 0 causes).setMac MacReg.tdt.index second)
          0 more = setIcs (s.setMac MacReg.tdt.index second) 0 (causes ||| more) := by
    rw [← setIcs_setMac _ _ (by decide) (by decide) (by decide), E1000State.setMac_setMac,
      setIcs_setIcs]
  simp only [finishBatch_eq, Nic.mapDev, Function.comp_apply, hdev]

/-- The ring as the registers describe it, with the head in it. -/
structure RingReady (n : Nic) : Prop where
  enabled : n.reg .tctl &&& 2 ≠ 0
  head : txHead n < txSlots n
  slots : txSlots n ≤ 2 ^ 16

/-- A write of the tail register that stays in the ring takes the slots up to it. -/
theorem setTctl_tail {n : Nic} (hready : RingReady n) {tail : UInt32}
    (htail : tail.toNat < txSlots n) {fuel : ℕ} (hfuel : txSlots n ≤ fuel) :
    setTctl fuel MacReg.tdt.index tail n =
      (takeSlots fuel (Ring.between (txSlots n) (txHead n) tail.toNat) (n, 2)).map
        (finishBatch tail) := by
  have hmask : tail &&& 0xffff = tail := by
    apply UInt32.toNat_inj.mp
    rw [UInt32.toNat_and]
    exact (Nat.and_two_pow_sub_one_eq_mod tail.toNat 16).trans
      (Nat.mod_eq_of_lt (htail.trans_le hready.slots))
  have hwritten : setTctl fuel MacReg.tdt.index tail n = startXmit fuel (n.setReg .tdt tail) := by
    have htdt : (n.mapDev (·.setMac MacReg.tdt.index tail)).reg .tdt = tail := n.dev.setMac_self _ _
    unfold setTctl
    dsimp only
    rw [htdt, hmask]
    simp only [Nic.setReg, Nic.mapDev, E1000State.setMac_setMac]
  have hreg {reg : MacReg} (hne : reg.index ≠ MacReg.tdt.index) :
      (n.setReg .tdt tail).reg reg = n.reg reg := n.dev.setMac_of_ne _ hne
  have henabled : (n.setReg .tdt tail).reg .tctl &&& 2 ≠ 0 := by
    rw [hreg (by decide)]
    exact hready.enabled
  have hslots : txSlots (n.setReg .tdt tail) = txSlots n := congrArg slotCount (hreg (by decide))
  have hhead : txHead (n.setReg .tdt tail) = txHead n := congrArg UInt32.toNat (hreg (by decide))
  have htail' : txTail (n.setReg .tdt tail) = tail.toNat :=
    congrArg UInt32.toNat (n.dev.setMac_self _ _)
  have hvisited : txVisited (n.setReg .tdt tail) =
      Ring.between (txSlots n) (txHead n) tail.toNat := by
    rw [txVisited, hslots, hhead, htail', Ring.visited_eq_between hready.head htail]
  have hlength : (txVisited (n.setReg .tdt tail)).length < fuel := by
    rw [hvisited, Ring.between_length]
    exact (Nat.mod_lt _ (txSlots_pos n)).trans_le hfuel
  rw [hwritten,
    startXmit_eq_takeSlots henabled (.inl (by rw [hslots, hhead]; exact hready.head)) hlength,
    hvisited, Nic.setReg, (outside_tail tail).takeSlots]
  cases takeSlots fuel (Ring.between (txSlots n) (txHead n) tail.toNat) (n, 2) <;> rfl

/-- A register that stays while slots are taken also stays at the end of a batch. -/
theorem finishBatch_reg (tail : UInt32) (s : Nic × UInt32) {reg : MacReg}
    (htdt : reg.index ≠ MacReg.tdt.index) (hicr : reg.index ≠ MacReg.icr.index)
    (hics : reg.index ≠ MacReg.ics.index) :
    (finishBatch tail s).reg reg = s.1.reg reg :=
  (setInterruptCause_of_ne _ _ hicr hics).trans (s.1.dev.setMac_of_ne tail htdt)

/-- What a batch leaves: the ring is ready and its head is at the tail that was written. -/
theorem takeSlots_finishBatch {n : Nic} (hready : RingReady n) {tail : UInt32}
    (htail : tail.toNat < txSlots n) (fuel : ℕ) :
    Ensures (fun s => RingReady (finishBatch tail s) ∧ txSlots (finishBatch tail s) = txSlots n ∧
        txHead (finishBatch tail s) = tail.toNat)
      (takeSlots fuel (Ring.between (txSlots n) (txHead n) tail.toNat) (n, 2)) := by
  have haway (i : ℕ) : (txHead n + (i + 1)) % txSlots n ≠ txSlots n :=
    (Nat.mod_lt _ (txSlots_pos n)).ne
  have hmoves :=
    takeSlots_moves (Ring.walk_between hready.head htail fun i _ => haway i) fuel
      (s := (n, 2)) rfl rfl
  refine hmoves.mono fun s h => ?_
  have hslots : txSlots (finishBatch tail s) = txSlots n :=
    congrArg slotCount
      ((finishBatch_reg tail s (by decide) (by decide) (by decide)).trans h.1.tdlen)
  have hhead : txHead (finishBatch tail s) = tail.toNat :=
    (congrArg UInt32.toNat (finishBatch_reg tail s (by decide) (by decide) (by decide))).trans h.2
  refine ⟨⟨?_, ?_, ?_⟩, hslots, hhead⟩
  · rw [finishBatch_reg tail s (by decide) (by decide) (by decide),
      h.1 .tctl (by decide) (by decide)]
    exact hready.enabled
  · rw [hslots, hhead]
    exact htail
  · rw [hslots]
    exact hready.slots

/-- The causes of a batch start with one that is raised anyway. -/
theorem takeSlots_keeps_cause (fuel : ℕ) (slots : List ℕ) (n : Nic) (cause : UInt32) :
    Ensures (fun s => s.2 ||| cause = s.2) (takeSlots fuel slots (n, cause)) := by
  have hcause := takeSlots_cause fuel slots n cause cause
  rw [UInt32.or_self] at hcause
  rw [hcause]
  intro s hs
  cases htaken : takeSlots fuel slots (n, cause) with
  | error stop => simp [htaken, Except.map] at hs
  | ok s' =>
    simp only [htaken, Except.map, Except.ok.injEq] at hs
    rw [← hs]
    simp only [Prod.map, UInt32.or_comm cause, UInt32.or_assoc, UInt32.or_self]

/-- Two writes of the tail register do as much as the second alone. -/
theorem setTctl_setTctl {n : Nic} (hready : RingReady n) {first second : UInt32}
    (hfirst : first.toNat < txSlots n) (hsecond : second.toNat < txSlots n)
    (hle : Ring.distance (txSlots n) (txHead n) first.toNat ≤
      Ring.distance (txSlots n) (txHead n) second.toNat)
    {fuel : ℕ} (hfuel : txSlots n ≤ fuel) :
    (setTctl fuel MacReg.tdt.index first n >>= setTctl fuel MacReg.tdt.index second) =
      setTctl fuel MacReg.tdt.index second n := by
  rw [setTctl_tail hready hfirst hfuel, setTctl_tail hready hsecond hfuel,
    ← Ring.between_append hready.head hfirst hsecond hle, takeSlots_append]
  have hleft := takeSlots_finishBatch hready hfirst fuel
  have hcauses := takeSlots_keeps_cause fuel (Ring.between (txSlots n) (txHead n) first.toNat) n 2
  cases htaken : takeSlots fuel (Ring.between (txSlots n) (txHead n) first.toNat) (n, 2) with
  | error stop => rfl
  | ok s =>
    obtain ⟨hready', hslots, hhead⟩ := hleft s htaken
    -- the second batch starts with its own cause, which the first one had already
    have hcause : takeSlots fuel (Ring.between (txSlots n) first.toNat second.toNat) s =
        (takeSlots fuel (Ring.between (txSlots n) first.toNat second.toNat) (s.1, 2)).map
          (Prod.map id (s.2 ||| ·)) := by
      rw [← takeSlots_cause, hcauses s htaken]
    change setTctl fuel MacReg.tdt.index second (finishBatch first s) =
      (takeSlots fuel (Ring.between (txSlots n) first.toNat second.toNat) s).map _
    rw [setTctl_tail hready' (by rwa [hslots]) (by rwa [hslots]), hslots, hhead, finishBatch_eq,
      ((outside_tail first).comp (outside_setIcs s.2)).takeSlots, hcause]
    cases takeSlots fuel (Ring.between (txSlots n) first.toNat second.toNat) (s.1, 2) with
    | error stop => rfl
    | ok s' => exact congrArg Except.ok (finishBatch_finishBatch first second s'.1 s.2 s'.2)

/-- Write the tail register several times. -/
def writeTails (fuel : ℕ) (tails : List UInt32) (n : Nic) : Except Stop Nic :=
  tails.foldlM (fun n tail => setTctl fuel MacReg.tdt.index tail n) n

/-- The tails lie in the ring and each is at or behind the one before it, seen from the head. -/
structure Advancing (n : Nic) (tails : List UInt32) : Prop where
  inside : ∀ tail ∈ tails, tail.toNat < txSlots n
  sorted : tails.Pairwise fun first second =>
    Ring.distance (txSlots n) (txHead n) first.toNat ≤
      Ring.distance (txSlots n) (txHead n) second.toNat

/-- A guest that moves the tail in several steps has the device do what one write of the last tail
does: the packets, guest RAM and the device are the same, and so is a failure. -/
theorem writeTails_eq_last (fuel : ℕ) (n : Nic) (tails : List UInt32) (last : UInt32)
    (hready : RingReady n) (hfuel : txSlots n ≤ fuel) (htails : Advancing n (tails ++ [last])) :
    writeTails fuel (tails ++ [last]) n = setTctl fuel MacReg.tdt.index last n := by
  induction tails generalizing n with
  | nil => exact bind_pure _
  | cons first rest ih =>
    have hfirst : first.toNat < txSlots n := htails.inside first List.mem_cons_self
    have hlast : last.toNat < txSlots n := htails.inside last (by simp)
    obtain ⟨hle, hsorted⟩ := List.pairwise_cons.mp htails.sorted
    have hrest :
        Ensures (fun n' => writeTails fuel (rest ++ [last]) n' =
          setTctl fuel MacReg.tdt.index last n')
        (setTctl fuel MacReg.tdt.index first n) := by
      rw [setTctl_tail hready hfirst hfuel]
      refine (takeSlots_finishBatch hready hfirst fuel).map fun s h => ?_
      obtain ⟨hready', hslots, hhead⟩ := h
      refine ih _ hready' (by rwa [hslots]) ⟨?_, ?_⟩
      · intro tail htail
        rw [hslots]
        exact htails.inside tail (List.mem_cons_of_mem _ htail)
      · rw [hslots, hhead]
        -- the distances from the new head are those from the old one less what is done
        refine hsorted.imp_of_mem fun {a b} ha hb hab => ?_
        rw [Ring.distance_of_le hready.head hfirst
            (htails.inside a (List.mem_cons_of_mem _ ha)) (hle a ha),
          Ring.distance_of_le hready.head hfirst
            (htails.inside b (List.mem_cons_of_mem _ hb)) (hle b hb)]
        exact Nat.sub_le_sub_right hab _
    calc writeTails fuel (first :: rest ++ [last]) n
        = setTctl fuel MacReg.tdt.index first n >>= writeTails fuel (rest ++ [last]) :=
          List.foldlM_cons
      _ = setTctl fuel MacReg.tdt.index first n >>= setTctl fuel MacReg.tdt.index last :=
          hrest.bind_congr fun n' h => h
      _ = setTctl fuel MacReg.tdt.index last n :=
          setTctl_setTctl hready hfirst hlast (hle last (by simp)) hfuel

/-- The guest announces the context descriptor, the first half of a packet and its second half with
a write of the tail each. -/
theorem writeTails_eq_last_enabledRing :
    writeTails (2 ^ 16) ([7, 0] ++ [1]) enabledRing =
      setTctl (2 ^ 16) MacReg.tdt.index 1 enabledRing :=
  writeTails_eq_last (2 ^ 16) enabledRing [7, 0] 1 ⟨by decide, by decide, by decide⟩ (by decide)
    ⟨List.forall_mem_cons.mpr ⟨by decide, List.forall_mem_cons.mpr ⟨by decide,
      List.forall_mem_singleton.mpr (by decide)⟩⟩, by decide⟩

end VirtualFirmware.Network
