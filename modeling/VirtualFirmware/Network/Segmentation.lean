import VirtualFirmware.Library.Segments
import VirtualFirmware.Network.TransmitReturns

/-!
# Segmentation

`process_tx_desc` reads the data of a packet that is to be cut into segments piece by piece, as the
descriptors bring it, and sends a segment whenever `tx.data` holds a full one. However the data is
spread over descriptors, the segments are those of the whole packet.
-/

namespace VirtualFirmware.Network

open Library Device Segments

/-- The context without the data and what is counted. -/
def contextOf (tp : E1000Tx) : E1000Tx :=
  { tp with data := fun _ => 0, header := fun _ => 0, size := 0, tsoFrames := 0 }

/-- The context is the given one up to the data and what is counted. -/
def SameContext (c tp : E1000Tx) : Prop := contextOf tp = contextOf c

/-- Whatever does not depend on the data is the same. -/
theorem SameContext.apply {c tp : E1000Tx} (h : SameContext c tp) {A : Type} (f : E1000Tx → A) :
    f (contextOf tp) = f (contextOf c) :=
  congrArg f h

/-- The fields that are read are at the same places, and may be followed by more. -/
theorem FieldsInside.of_sameContext {c tp : E1000Tx} {u : TxUnsaved} {count more : ℕ}
    (h : FieldsInside c u count) (hcontext : SameContext c tp) (hmore : count ≤ more) :
    FieldsInside tp u more where
  ip hu := by
    have hsame : tp.ipcss = c.ipcss := hcontext.apply E1000Tx.ipcss
    rw [hsame]
    exact (h.ip hu).trans hmore
  tcp hu := by
    have hsame : tp.tucss = c.tucss := hcontext.apply E1000Tx.tucss
    rw [hsame]
    exact (h.tcp hu).trans hmore
  sum hu := by
    have hsame : tp.tucso = c.tucso := hcontext.apply E1000Tx.tucso
    rw [hsame]
    exact (h.sum hu).trans hmore
  vlan hu := (h.vlan hu).trans hmore

/-- A context under which a packet is cut into segments that fit `tx.data`, and whose headers
contain the fields that are adjusted. -/
structure CutsSegments (c : E1000Tx) (u : TxUnsaved) : Prop where
  segmenting : u.segmenting = true
  payload : 0 < payloadLength c
  room : headerLength c + payloadLength c < 2 ^ 16
  inside : FieldsInside c u (headerLength c)

/-- The frame that is sent for segment `j` of a packet. -/
def segmentFrame (c : E1000Tx) (u : TxUnsaved) (packet : List UInt8) (j : ℕ) : List UInt8 :=
  frameOf c u (UInt16.ofNat j) (segment (headerLength c) (payloadLength c) packet j)

/-- The frames of the segments that are complete. -/
def completeFrames (c : E1000Tx) (u : TxUnsaved) (packet : List UInt8) : List (List UInt8) :=
  (List.range (full (headerLength c) (payloadLength c) packet)).map (segmentFrame c u packet)

/-- The bytes of the segment that is not complete. -/
def openSegment (c : E1000Tx) (packet : List UInt8) : List UInt8 :=
  buffer (headerLength c) (payloadLength c) packet

/-- The part of a packet that has been read: its complete segments have been sent behind `before`,
and `tx.data` holds the rest behind the header. -/
structure Holding (c : E1000Tx) (u : TxUnsaved) (before : List (List UInt8))
    (packet : List UInt8) (n : Nic) :
    Prop where
  context : SameContext c n.dev.tx
  unsaved : n.txUnsaved = u
  size : n.dev.tx.size.toNat = (openSegment c packet).length
  data : Region.load n.dev.tx.data (openSegment c packet).length = openSegment c packet
  header : headerLength c ≤ packet.length →
    Region.load n.dev.tx.header (headerLength c) = packet.take (headerLength c)
  frames : n.dev.tx.tsoFrames = UInt16.ofNat (full (headerLength c) (payloadLength c) packet)
  sent : n.sent = before ++ completeFrames c u packet

/-- More bytes have been read behind the part of a packet and belong to the current segment, which
may be full now. -/
structure Filled (c : E1000Tx) (u : TxUnsaved) (before : List (List UInt8))
    (packet bytes : List UInt8) (n : Nic) : Prop where
  context : SameContext c n.dev.tx
  unsaved : n.txUnsaved = u
  size : n.dev.tx.size.toNat = (openSegment c packet).length + bytes.length
  data : Region.load n.dev.tx.data ((openSegment c packet).length + bytes.length) =
    openSegment c packet ++ bytes
  header : headerLength c ≤ (packet ++ bytes).length →
    Region.load n.dev.tx.header (headerLength c) = (packet ++ bytes).take (headerLength c)
  frames : n.dev.tx.tsoFrames = UInt16.ofNat (full (headerLength c) (payloadLength c) packet)
  sent : n.sent = before ++ completeFrames c u packet

section Steps

variable {c : E1000Tx} {u : TxUnsaved} {before : List (List UInt8)}
  {packet bytes : List UInt8} {n : Nic}

/-- The context of a frame is the one that was set. -/
theorem frameOf_of_sameContext {tp : E1000Tx} (h : SameContext c tp) (frame : UInt16)
    (bytes : List UInt8) :
    frameOf tp u frame bytes = frameOf c u frame bytes :=
  h.apply (frameOf · u frame bytes)

/-- Segments that are complete are sent with the same frames when more is read. -/
theorem completeFrames_append_of_lt (hcuts : CutsSegments c u)
    (hroom : (openSegment c packet).length + bytes.length < headerLength c + payloadLength c) :
    completeFrames c u (packet ++ bytes) = completeFrames c u packet := by
  unfold completeFrames
  rw [full_append_of_lt hcuts.payload hroom]
  refine List.map_congr_left fun j hj => ?_
  rw [segmentFrame, segment_append_of_lt (List.mem_range.mp hj), segmentFrame]

/-- A segment that is filled is one more frame. -/
theorem completeFrames_append_of_eq (hcuts : CutsSegments c u)
    (hroom : (openSegment c packet).length + bytes.length = headerLength c + payloadLength c) :
    completeFrames c u (packet ++ bytes) = completeFrames c u packet ++
      [frameOf c u (UInt16.ofNat (full (headerLength c) (payloadLength c) packet))
        (openSegment c packet ++ bytes)] := by
  unfold completeFrames
  rw [full_append_of_eq hcuts.payload hroom, List.range_succ, List.map_append, List.map_singleton,
    segmentFrame, segment_append hcuts.payload hroom.le]
  refine congrArg (· ++ _) (List.map_congr_left fun j hj => ?_)
  rw [segmentFrame, segment_append_of_lt (List.mem_range.mp hj), segmentFrame]

/-- A segment that is not full stays in `tx.data`. -/
theorem Filled.holding (h : Filled c u before packet bytes n) (hcuts : CutsSegments c u)
    (hroom : (openSegment c packet).length + bytes.length < headerLength c + payloadLength c) :
    Holding c u before (packet ++ bytes) n := by
  have hopen : openSegment c (packet ++ bytes) = openSegment c packet ++ bytes :=
    buffer_append_of_lt hcuts.payload hroom
  refine ⟨h.context, h.unsaved, ?_, ?_, h.header, ?_, ?_⟩
  · rw [h.size, hopen, List.length_append]
  · rw [hopen, List.length_append, h.data]
  · rw [h.frames, full_append_of_lt hcuts.payload hroom]
  · rw [h.sent, completeFrames_append_of_lt hcuts hroom]

/-- A segment that is full is sent, and the next one begins with the header. -/
theorem Filled.holding_xmitSeg (h : Filled c u before packet bytes n) (hcuts : CutsSegments c u)
    (hroom : (openSegment c packet).length + bytes.length = headerLength c + payloadLength c) :
    Holding c u before (packet ++ bytes) (restoreHeader (xmitSeg n)) := by
  have hlong : headerLength c ≤ (packet ++ bytes).length :=
    (Nat.le_add_right _ _).trans (length_append_of_eq hcuts.payload hroom).ge
  have hopen : openSegment c (packet ++ bytes) = (packet ++ bytes).take (headerLength c) :=
    buffer_append_of_eq hcuts.payload hroom
  have hlength : (openSegment c (packet ++ bytes)).length = headerLength c := by
    rw [hopen, List.length_take_of_le hlong]
  have hhdr : n.dev.tx.hdrLen = c.hdrLen := h.context.apply E1000Tx.hdrLen
  have hheader : (xmitSeg n).dev.tx.header = n.dev.tx.header := by rw [xmitSeg_tx, sentTx]
  have hhdr' : (xmitSeg n).dev.tx.hdrLen = c.hdrLen := by rw [xmitSeg_tx, sentTx, hhdr]
  have hinside : FieldsInside n.dev.tx n.txUnsaved n.dev.tx.size.toNat := by
    rw [h.unsaved, h.size, hroom]
    exact hcuts.inside.of_sameContext h.context (Nat.le_add_right _ _)
  refine ⟨?_, h.unsaved, ?_, ?_, ?_, ?_, ?_⟩
  · exact (congrArg contextOf (xmitSeg_tx n)).trans h.context
  · rw [hlength]
    change (xmitSeg n).dev.tx.hdrLen.toUInt16.toNat = _
    rw [hhdr', UInt8.toNat_toUInt16]
    rfl
  · rw [hlength, hopen]
    change Region.load
      (Region.store _ (Region.load (xmitSeg n).dev.tx.header (xmitSeg n).dev.tx.hdrLen.toNat)) _ = _
    rw [hheader, hhdr']
    exact (Region.load_store_load _ _ _).trans (h.header hlong)
  · intro _
    change Region.load (xmitSeg n).dev.tx.header _ = _
    rw [hheader, h.header hlong]
  · change (xmitSeg n).dev.tx.tsoFrames = _
    rw [xmitSeg_tx, sentTx, h.unsaved, if_pos hcuts.segmenting, h.frames,
      full_append_of_eq hcuts.payload hroom, UInt16.ofNat_add]
    rfl
  · change n.sent ++ [(outPacket n).1] = _
    rw [outPacket_eq_frameOf hinside, h.sent, completeFrames_append_of_eq hcuts hroom, h.size,
      h.data, h.frames, h.unsaved, frameOf_of_sameContext h.context, List.append_assoc]

/-- `addBytes` leaves the options and what was sent. -/
theorem addBytes_rest (count : UInt32) (n : Nic) :
    (Network.addBytes count n).txUnsaved = n.txUnsaved ∧ (Network.addBytes count n).sent =
      n.sent := by
  unfold Network.addBytes
  dsimp only
  split <;> exact ⟨rfl, rfl⟩

/-- Bytes that the current segment has room for fill it. -/
theorem Holding.addBytes (h : Holding c u before packet n) (hcuts : CutsSegments c u)
    (hroom : (openSegment c packet).length + bytes.length ≤ headerLength c + payloadLength c)
    {count : UInt32}
    (hcount : count.toNat = bytes.length) :
    Filled c u before packet bytes (Network.addBytes count (storeBytes bytes n)) := by
  have hsmall := hcuts.room
  have hhdr : n.dev.tx.hdrLen = c.hdrLen := h.context.apply E1000Tx.hdrLen
  have htx := addBytes_tx count (storeBytes bytes n)
  have hstored : (storeBytes bytes n).dev.tx =
      { n.dev.tx with
        data := Region.storeAt n.dev.tx.data (openSegment c packet).length bytes } := by
    rw [← h.size]
    rfl
  rw [hstored] at htx
  dsimp only at htx
  have hdata : Region.load (Region.storeAt n.dev.tx.data (openSegment c packet).length bytes)
      ((openSegment c packet).length + bytes.length) = openSegment c packet ++ bytes := by
    rw [Region.load_storeAt_append, h.data]
  have hsz : (n.dev.tx.size.toUInt32 + count).toNat =
      (openSegment c packet).length + bytes.length := by
    rw [UInt32.toNat_add, UInt16.toNat_toUInt32, h.size, hcount, Nat.mod_eq_of_lt (by omega)]
  refine ⟨?_, ?_, ?_, ?_, ?_, ?_, ?_⟩
  · rw [htx]
    exact h.context
  · exact (addBytes_rest count _).1.trans h.unsaved
  · rw [htx]
    change (n.dev.tx.size.toUInt32 + count).toUInt16.toNat = _
    rw [UInt32.toNat_toUInt16, hsz, Nat.mod_eq_of_lt (by omega)]
  · rw [htx]
    exact hdata
  · intro hlong
    rw [htx]
    dsimp only
    have hheader : n.dev.tx.hdrLen.toUInt32.toNat = headerLength c := by
      rw [hhdr, UInt8.toNat_toUInt32]
      rfl
    have hcomplete : (n.dev.tx.size.toUInt32 + count ≥ n.dev.tx.hdrLen.toUInt32 ∧
        n.dev.tx.size.toUInt32 < n.dev.tx.hdrLen.toUInt32) ↔ packet.length < headerLength c := by
      rw [ge_iff_le, UInt32.le_iff_toNat_le, UInt32.lt_iff_toNat_lt, hsz, hheader,
        UInt16.toNat_toUInt32, h.size]
      rw [List.length_append] at hlong
      rcases Nat.lt_or_ge packet.length (headerLength c) with hshort | hhead
      · rw [openSegment, buffer_of_length_lt hshort]
        omega
      · rw [openSegment, buffer_length hcuts.payload]
        omega
    by_cases hshort : packet.length < headerLength c
    · have hopen : openSegment c packet = packet := buffer_of_length_lt hshort
      rw [hopen, ← List.length_append] at hdata
      rw [if_pos (hcomplete.mpr hshort), hhdr, hopen]
      have hfront : Region.load (Region.storeAt n.dev.tx.data packet.length bytes)
          (headerLength c) =
          (packet ++ bytes).take (headerLength c) := by rw [← Region.take_load _ hlong, hdata]
      exact (Region.load_store_load _ _ _).trans hfront
    · have hhead : headerLength c ≤ packet.length := Nat.le_of_not_lt hshort
      rw [if_neg (mt hcomplete.mp hshort), h.header hhead, List.take_append_of_le_length hhead]
  · rw [htx]
    exact h.frames
  · exact (addBytes_rest count _).2.trans h.sent

/-- Bytes that the current segment has room for become part of the packet. -/
theorem Holding.growSegment (h : Holding c u before packet n) (hcuts : CutsSegments c u)
    (hroom : (openSegment c packet).length + bytes.length ≤ headerLength c + payloadLength c)
    {count : UInt32}
    (hcount : count.toNat = bytes.length) :
    Holding c u before (packet ++ bytes) (Network.growSegment count (storeBytes bytes n)) := by
  have hfilled := h.addBytes hcuts hroom hcount
  have hsmall := hcuts.room
  have hfull : ((storeBytes bytes n).dev.tx.size.toUInt32 + count =
      (storeBytes bytes n).dev.tx.hdrLen.toUInt32 + (storeBytes bytes n).dev.tx.mss.toUInt32) ↔
      (openSegment c packet).length + bytes.length = headerLength c + payloadLength c := by
    change (n.dev.tx.size.toUInt32 + count = n.dev.tx.hdrLen.toUInt32 + n.dev.tx.mss.toUInt32) ↔ _
    have hhdr : n.dev.tx.hdrLen = c.hdrLen := h.context.apply E1000Tx.hdrLen
    have hmss : n.dev.tx.mss = c.mss := h.context.apply E1000Tx.mss
    rw [hhdr, hmss, ← UInt32.toNat_inj, wholeSegment_toNat, UInt32.toNat_add, UInt16.toNat_toUInt32,
      h.size, hcount, Nat.mod_eq_of_lt (by omega)]
  unfold Network.growSegment
  dsimp only
  split
  · rename_i hcheck
    exact hfilled.holding_xmitSeg hcuts (hfull.mp hcheck)
  · rename_i hcheck
    exact hfilled.holding hcuts (Nat.lt_of_le_of_ne hroom (mt hfull.mpr hcheck))

/-- How many bytes a round takes: what is left, as far as the current segment has room. -/
theorem Holding.segmentBytes_toNat (h : Holding c u before packet n) (hcuts : CutsSegments c u)
    {splitSize : UInt32} (hsplit : splitSize.toNat < 2 ^ 16) :
    (segmentBytes n.dev.tx splitSize).toNat =
      min splitSize.toNat (headerLength c + payloadLength c - (openSegment c packet).length) := by
  have hheader : headerLength n.dev.tx = headerLength c := h.context.apply headerLength
  have hpayload : payloadLength n.dev.tx = payloadLength c := h.context.apply payloadLength
  have hlt : (openSegment c packet).length < headerLength c + payloadLength c :=
    buffer_length_lt hcuts.payload
  rw [Network.segmentBytes_toNat (by rw [hheader, hpayload, h.size]; exact hlt.le) hsplit, hheader,
    hpayload, h.size]

/-- The bytes of a round are read behind those of the current segment. -/
theorem Holding.readData (h : Holding c u before packet n) (hcuts : CutsSegments c u)
    (addr : UInt64) (count : UInt32)
    (hcount : (openSegment c packet).length + count.toNat ≤ headerLength c + payloadLength c) :
    Network.readData addr count n = .ok (storeBytes (n.ram.read addr count.toNat) n) := by
  have hsmall := hcuts.room
  exact readData_of_le (by rw [h.size, txDataSize]; omega)

/-- A round takes at least one byte, if there is one, which becomes part of the packet. -/
theorem Holding.segmentRound (h : Holding c u before packet n) (hcuts : CutsSegments c u)
    {splitSize : UInt32} (hsplit : splitSize.toNat < 2 ^ 16) (addr : UInt64) :
    ∃ (count : UInt32) (n' : Nic), count.toNat ≤ splitSize.toNat ∧
      (0 < splitSize.toNat → 0 < count.toNat) ∧
      Network.segmentRound (addr, splitSize, n) = .ok (if splitSize - count = 0 then .inr n'
        else .inl (addr + count.toUInt64, splitSize - count, n')) ∧
      Holding c u before (packet ++ n.ram.read addr count.toNat) n' ∧ n'.ram = n.ram := by
  have hlt : (openSegment c packet).length < headerLength c + payloadLength c :=
    buffer_length_lt hcuts.payload
  have hcount := h.segmentBytes_toNat hcuts hsplit
  have hread := h.readData hcuts addr (segmentBytes n.dev.tx splitSize) (by omega)
  refine ⟨segmentBytes n.dev.tx splitSize, Network.growSegment (segmentBytes n.dev.tx splitSize)
    (storeBytes (n.ram.read addr (segmentBytes n.dev.tx splitSize).toNat) n), by omega,
      by omega, ?_, ?_, ?_⟩
  · unfold Network.segmentRound
    dsimp only
    rw [hread]
    change (if _ then _ else _) = _
    split <;> rfl
  · refine h.growSegment hcuts ?_ ?_
    · rw [AddressSpace.read_length]
      omega
    · rw [AddressSpace.read_length]
  · exact (growSegment_work _ _).kept.ram

/-- The data of a descriptor becomes part of the packet. -/
theorem Holding.segmentLoop (h : Holding c u before packet n) (hcuts : CutsSegments c u)
    {splitSize : UInt32} (hsplit : splitSize.toNat < 2 ^ 16) {fuel : ℕ}
    (hfuel : splitSize.toNat < fuel) (addr : UInt64) :
    ∃ n', loop .spent Network.segmentRound fuel (addr, splitSize, n) = .ok n' ∧
      Holding c u before (packet ++ n.ram.read addr splitSize.toNat) n' := by
  induction fuel generalizing packet n addr splitSize with
  | zero => omega
  | succ fuel ih =>
    obtain ⟨count, n', hle, hpos, hround, hholding, hram⟩ := h.segmentRound hcuts hsplit addr
    have hleft : (splitSize - count).toNat = splitSize.toNat - count.toNat :=
      UInt32.toNat_sub_of_le _ _ (UInt32.le_iff_toNat_le.mpr hle)
    by_cases hdone : splitSize - count = 0
    · have hall : splitSize.toNat = count.toNat := by
        rw [hdone, UInt32.toNat_zero] at hleft
        omega
      rw [if_pos hdone] at hround
      exact ⟨n', loop_of_inr hround fuel, hall ▸ hholding⟩
    · have hmore : (splitSize - count).toNat ≠ 0 := fun hzero => hdone (UInt32.toNat_inj.mp hzero)
      rw [if_neg hdone] at hround
      obtain ⟨last, hlast, hend⟩ :=
        ih hholding (by omega : (splitSize - count).toNat < 2 ^ 16) (by omega)
        (addr + count.toUInt64)
      refine ⟨last, (loop_of_inl hround fuel).trans hlast, ?_⟩
      rw [hram, hleft, List.append_assoc] at hend
      -- the rest is read where the round stopped
      have haddr : addr + count.toUInt64 = addr + UInt64.ofNat count.toNat := by
        rw [← UInt32.toNat_toUInt64, UInt64.ofNat_toNat]
      rwa [haddr, ← AddressSpace.read_add, Nat.add_sub_cancel' hle] at hend

end Steps

end VirtualFirmware.Network
