import VirtualFirmware.Network.Frames
import VirtualFirmware.Network.TransmitFrame

/-!
# When a descriptor is processed to its end

`process_tx_desc` checks neither that the bytes of a descriptor fit `tx.data` nor that the context
leaves room for payload in a segment. A descriptor that fits the packet it belongs to is processed
to its end: no byte is stored behind `tx.data`, and the loop that cuts the data into segments takes
at least one byte in each round.
-/

namespace VirtualFirmware.Network

open Library Device

/-- The length of the header that the segments share. -/
def headerLength (c : E1000Tx) : ℕ := c.hdrLen.toNat

/-- The length of a segment's payload. -/
def payloadLength (c : E1000Tx) : ℕ := c.mss.toNat

/-- The variable `msh` of `process_tx_desc`, the length of a full segment, does not overflow. -/
theorem wholeSegment_toNat (c : E1000Tx) :
    (c.hdrLen.toUInt32 + c.mss.toUInt32).toNat = headerLength c + payloadLength c := by
  have hhdr := c.hdrLen.toNat_lt
  have hmss := c.mss.toNat_lt
  rw [UInt32.toNat_add, UInt8.toNat_toUInt32, UInt16.toNat_toUInt32]
  exact Nat.mod_eq_of_lt (by omega)

/-- The current segment is not full, segments have payload, and a full one fits `tx.data`. -/
structure SegmentOpen (tp : E1000Tx) : Prop where
  payload : 0 < payloadLength tp
  unfilled : tp.size.toNat < headerLength tp + payloadLength tp
  room : headerLength tp + payloadLength tp ≤ txDataSize

instance (tp : E1000Tx) : Decidable (SegmentOpen tp) :=
  decidable_of_iff (0 < payloadLength tp ∧ tp.size.toNat < headerLength tp + payloadLength tp ∧
    headerLength tp + payloadLength tp ≤ txDataSize)
    ⟨fun ⟨hpayload, hunfilled, hroom⟩ => ⟨hpayload, hunfilled, hroom⟩,
      fun h => ⟨h.payload, h.unfilled, h.room⟩⟩

/-- A round takes what is left, as far as the current segment has room. -/
theorem segmentBytes_toNat {tp : E1000Tx}
    (hopen : tp.size.toNat ≤ headerLength tp + payloadLength tp) {splitSize : UInt32}
    (hsplit : splitSize.toNat < 2 ^ 16) :
    (segmentBytes tp splitSize).toNat =
      min splitSize.toNat (headerLength tp + payloadLength tp - tp.size.toNat) := by
  have hsize := tp.size.toNat_lt
  have hsum : (tp.size.toUInt32 + splitSize).toNat = tp.size.toNat + splitSize.toNat := by
    rw [UInt32.toNat_add, UInt16.toNat_toUInt32, Nat.mod_eq_of_lt (by omega)]
  unfold segmentBytes
  dsimp only
  split
  · rename_i hover
    have hle : tp.size.toUInt32 ≤ tp.hdrLen.toUInt32 + tp.mss.toUInt32 := by
      rw [UInt32.le_iff_toNat_le, wholeSegment_toNat, UInt16.toNat_toUInt32]
      exact hopen
    rw [gt_iff_lt, UInt32.lt_iff_toNat_lt, wholeSegment_toNat, hsum] at hover
    rw [UInt32.toNat_sub_of_le _ _ hle, wholeSegment_toNat, UInt16.toNat_toUInt32]
    omega
  · rename_i hfits
    rw [gt_iff_lt, UInt32.lt_iff_toNat_lt, wholeSegment_toNat, hsum] at hfits
    omega

/-- `addBytes` counts the bytes in the size and saves the header once it is complete. -/
theorem addBytes_tx (count : UInt32) (n : Nic) :
    (Network.addBytes count n).dev.tx =
      { n.dev.tx with
        size := (n.dev.tx.size.toUInt32 + count).toUInt16
        header := if n.dev.tx.size.toUInt32 + count ≥ n.dev.tx.hdrLen.toUInt32 ∧
            n.dev.tx.size.toUInt32 < n.dev.tx.hdrLen.toUInt32 then
          Region.store n.dev.tx.header (Region.load n.dev.tx.data n.dev.tx.hdrLen.toNat)
          else n.dev.tx.header } := by
  unfold Network.addBytes
  dsimp only
  split <;> rfl

/-- Counting leaves the transmit context. -/
theorem countSent_tx (s : E1000State) : (countSent s).tx = s.tx := by
  conv_rhs => rw [← countSent_dev s]

/-- The transmit context behind a packet that was sent. -/
theorem xmitSeg_tx (n : Nic) : (xmitSeg n).dev.tx = sentTx n n.dev.tx := countSent_tx _

/-- Bytes that the current segment has room for leave one that is not full: a full one is sent. -/
theorem SegmentOpen.growSegment {n : Nic} (h : SegmentOpen n.dev.tx) {count : UInt32}
    (hcount : n.dev.tx.size.toNat + count.toNat ≤ headerLength n.dev.tx + payloadLength n.dev.tx) :
    SegmentOpen (Network.growSegment count n).dev.tx := by
  have hroom : headerLength n.dev.tx + payloadLength n.dev.tx ≤ 2 ^ 16 := h.room
  have hadded := addBytes_tx count n
  have hsum : (n.dev.tx.size.toUInt32 + count).toNat = n.dev.tx.size.toNat + count.toNat := by
    rw [UInt32.toNat_add, UInt16.toNat_toUInt32, Nat.mod_eq_of_lt (by omega)]
  unfold Network.growSegment
  dsimp only
  split
  · -- the next segment begins with the header
    have hhdr : (xmitSeg (addBytes count n)).dev.tx.hdrLen = n.dev.tx.hdrLen := by
      rw [xmitSeg_tx, sentTx, hadded]
    have hmss : (xmitSeg (addBytes count n)).dev.tx.mss = n.dev.tx.mss := by
      rw [xmitSeg_tx, sentTx, hadded]
    have hheader : headerLength (restoreHeader (xmitSeg (addBytes count n))).dev.tx =
        headerLength n.dev.tx := congrArg UInt8.toNat hhdr
    have hpayload : payloadLength (restoreHeader (xmitSeg (addBytes count n))).dev.tx =
        payloadLength n.dev.tx := congrArg UInt16.toNat hmss
    have hsize : (restoreHeader (xmitSeg (addBytes count n))).dev.tx.size.toNat =
        headerLength n.dev.tx := by
      change (xmitSeg (addBytes count n)).dev.tx.hdrLen.toUInt16.toNat = _
      rw [hhdr, UInt8.toNat_toUInt16]
      rfl
    refine ⟨?_, ?_, ?_⟩
    · rw [hpayload]
      exact h.payload
    · rw [hheader, hpayload, hsize]
      exact Nat.lt_add_of_pos_right h.payload
    · rw [hheader, hpayload]
      exact h.room
  · rename_i hpartial
    have hlt : n.dev.tx.size.toNat + count.toNat <
        headerLength n.dev.tx + payloadLength n.dev.tx := by
      refine Nat.lt_of_le_of_ne hcount fun heq => hpartial (UInt32.toNat_inj.mp ?_)
      rw [hsum, heq, wholeSegment_toNat]
    rw [hadded]
    refine ⟨h.payload, ?_, h.room⟩
    change (n.dev.tx.size.toUInt32 + count).toUInt16.toNat <
      headerLength n.dev.tx + payloadLength n.dev.tx
    rw [UInt32.toNat_toUInt16, hsum, Nat.mod_eq_of_lt (by omega)]
    exact hlt

/-- Store bytes behind those of the current segment. -/
def storeBytes (bytes : List UInt8) (n : Nic) : Nic :=
  n.mapTx fun tp => { tp with data := Region.storeAt tp.data tp.size.toNat bytes }

/-- Bytes for which there is room in `tx.data` are read. -/
theorem readData_of_le {addr : UInt64} {count : UInt32} {n : Nic}
    (h : n.dev.tx.size.toNat + count.toNat ≤ txDataSize) :
    readData addr count n = .ok (storeBytes (n.ram.read addr count.toNat) n) := by
  have hsmall : count.toNat < 2 ^ 31 := by
    unfold txDataSize at h
    omega
  unfold readData
  rw [transferred_of_lt hsmall, if_pos h]
  rfl

/-- Storing the bytes leaves what is counted. -/
theorem SegmentOpen.storeBytes {n : Nic} (h : SegmentOpen n.dev.tx) (bytes : List UInt8) :
    SegmentOpen (Network.storeBytes bytes n).dev.tx :=
  ⟨h.payload, h.unfilled, h.room⟩

/-- A round leaves the loop, or takes at least one byte and leaves a segment that is not full. -/
theorem SegmentOpen.segmentRound {addr : UInt64} {splitSize : UInt32} {n : Nic}
    (h : SegmentOpen n.dev.tx) (hsplit : splitSize.toNat < 2 ^ 16) :
    (∃ result, Network.segmentRound (addr, splitSize, n) = .ok (.inr result)) ∨
      ∃ next, Network.segmentRound (addr, splitSize, n) = .ok (.inl next) ∧
        (SegmentOpen next.2.2.dev.tx ∧ next.2.1.toNat < 2 ^ 16) ∧
          next.2.1.toNat < splitSize.toNat := by
  obtain ⟨count, hcount⟩ : ∃ count, count = segmentBytes n.dev.tx splitSize := ⟨_, rfl⟩
  have hunfilled := h.unfilled
  have hroom := h.room
  have htaken : count.toNat = min splitSize.toNat
      (headerLength n.dev.tx + payloadLength n.dev.tx - n.dev.tx.size.toNat) := by
    rw [hcount, segmentBytes_toNat hunfilled.le hsplit]
  have hleft : (splitSize - count).toNat = splitSize.toNat - count.toNat :=
    UInt32.toNat_sub_of_le _ _ (UInt32.le_iff_toNat_le.mpr (by omega))
  have hgrown : SegmentOpen (Network.growSegment count
      (Network.storeBytes (n.ram.read addr count.toNat) n)).dev.tx := by
    refine (h.storeBytes _).growSegment ?_
    change n.dev.tx.size.toNat + count.toNat ≤ headerLength n.dev.tx + payloadLength n.dev.tx
    omega
  unfold Network.segmentRound
  dsimp only
  rw [← hcount, readData_of_le (by omega)]
  by_cases hdone : splitSize - count = 0
  · exact .inl ⟨_, if_pos hdone⟩
  · have hmore : (splitSize - count).toNat ≠ 0 := fun hzero => hdone (UInt32.toNat_inj.mp hzero)
    have hless : (splitSize - count).toNat < splitSize.toNat := by omega
    exact .inr ⟨_, if_neg hdone, ⟨hgrown, hless.trans hsplit⟩, hless⟩

/-- A descriptor fits the packet it belongs to. Segments have payload and fit `tx.data`, and the
current one is not full; a packet that is sent as it is fits `tx.data` with the bytes of the
descriptor. The bytes of a descriptor that asks for segments which the context does not enable are
left out. -/
def TxDesc.Fits (dp : TxDesc) (n : Nic) : Prop :=
  if dp.isContext then True
  else if dp.isTse then n.txUnsaved.tse = true → SegmentOpen n.dev.tx
  else n.dev.tx.size.toNat + dp.splitSize.toNat ≤ txDataSize

instance (dp : TxDesc) (n : Nic) : Decidable (dp.Fits n) :=
  inferInstanceAs (Decidable (if dp.isContext then True
    else if dp.isTse then n.txUnsaved.tse = true → SegmentOpen n.dev.tx
    else n.dev.tx.size.toNat + dp.splitSize.toNat ≤ txDataSize))

/-- A descriptor points to fewer than 2¹⁶ bytes. -/
theorem TxDesc.splitSize_lt (dp : TxDesc) : dp.splitSize.toNat < 2 ^ 16 := by
  have hmask : dp.splitSize.toNat = dp.lower.toNat % 2 ^ 16 := by
    unfold TxDesc.splitSize
    rw [UInt32.toNat_and]
    exact Nat.and_two_pow_sub_one_eq_mod dp.lower.toNat 16
  rw [hmask]
  exact Nat.mod_lt _ (by decide)

/-- The bytes of a descriptor are taken, if a segment has room for them or the packet has. -/
theorem takeBytes_returns {fuel : ℕ} (hfuel : 2 ^ 16 ≤ fuel) (addr : UInt64) {splitSize : UInt32}
    (hsplit : splitSize.toNat < 2 ^ 16) {n : Nic}
    (hopen : n.txUnsaved.segmenting = true → SegmentOpen n.dev.tx)
    (hplain : n.txUnsaved.cptse = false → n.dev.tx.size.toNat + splitSize.toNat ≤ txDataSize) :
    ∃ n', takeBytes fuel addr splitSize n = .ok n' := by
  unfold takeBytes
  split
  · rename_i hseg
    refine loop_returns (fun s => SegmentOpen s.2.2.dev.tx ∧ s.2.1.toNat < 2 ^ 16)
      (fun s => s.2.1.toNat)
      (fun s hs => hs.1.segmentRound hs.2) ⟨hopen hseg, hsplit⟩ (hsplit.trans_le hfuel)
  · split
    · exact ⟨n, rfl⟩
    · rename_i hseg hdropped
      have hwhole : n.txUnsaved.cptse = false := by
        cases htse : n.txUnsaved.tse <;> simp_all [TxUnsaved.segmenting]
      rw [readData_of_le (hplain hwhole)]
      exact ⟨_, rfl⟩

/-- A descriptor that fits is processed to its end. -/
theorem processTxDesc_returns {fuel : ℕ} (hfuel : 2 ^ 16 ≤ fuel) {dp : TxDesc} {n : Nic}
    (h : dp.Fits n) :
    ∃ n', processTxDesc fuel dp n = .ok n' := by
  unfold processTxDesc
  unfold TxDesc.Fits at h
  split
  · exact ⟨_, rfl⟩
  · rename_i hdata
    rw [if_neg hdata] at h
    have hcptse : (loadVlan dp (loadPopts dp n)).txUnsaved.cptse = dp.isTse := by
      change (loadedVlan _ _ dp { n.txUnsaved with cptse := dp.isTse }).cptse = _
      unfold loadedVlan
      split <;> rfl
    have htse : (loadVlan dp (loadPopts dp n)).txUnsaved.tse = n.txUnsaved.tse := by
      change (loadedVlan _ _ dp { n.txUnsaved with cptse := dp.isTse }).tse = _
      unfold loadedVlan
      split <;> rfl
    have hopen (hseg : (loadVlan dp (loadPopts dp n)).txUnsaved.segmenting = true) :
        SegmentOpen (loadVlan dp (loadPopts dp n)).dev.tx := by
      rw [TxUnsaved.segmenting, htse, hcptse, Bool.and_eq_true] at hseg
      rw [if_pos hseg.2] at h
      have hcontext := h hseg.1
      exact ⟨hcontext.payload, hcontext.unfilled, hcontext.room⟩
    have hplain (hwhole : (loadVlan dp (loadPopts dp n)).txUnsaved.cptse = false) :
        n.dev.tx.size.toNat + dp.splitSize.toNat ≤ txDataSize := by
      rw [hcptse] at hwhole
      rw [hwhole, if_neg Bool.false_ne_true] at h
      exact h
    obtain ⟨n', htaken⟩ := takeBytes_returns hfuel dp.bufferAddr dp.splitSize_lt hopen hplain
    rw [htaken]
    exact ⟨_, rfl⟩

end VirtualFirmware.Network
