import VirtualFirmware.Network.Checksums
import VirtualFirmware.Network.Segmentation

/-!
# The headers of the segments

Every segment of a packet carries the header of the packet with a few fields adjusted: the length
and the identification of the IP header, the sequence number and the flags of the TCP header, and
the checksums. A receiver of the segments finds the packet's payload at the sequence numbers it
would have there in one packet.
-/

namespace VirtualFirmware.Network

open Library Device OnesComplement Segments

/-- A half word depends on its bytes. -/
theorem be16_congr {left right : Region} {offset : ℕ}
    (h : ∀ i, offset ≤ i → i < offset + 2 → left i = right i) :
    be16 left offset = be16 right offset := by
  have hload : left.loadAt offset 2 = right.loadAt offset 2 :=
    Region.load_eq_load_iff.mpr fun i hi => h (offset + i) (by omega) (by omega)
  rw [be16, be16, hload]

/-- A word depends on its bytes. -/
theorem be32_congr {left right : Region} {offset : ℕ}
    (h : ∀ i, offset ≤ i → i < offset + 4 → left i = right i) :
    be32 left offset = be32 right offset := by
  have hload : left.loadAt offset 4 = right.loadAt offset 4 :=
    Region.load_eq_load_iff.mpr fun i hi => h (offset + i) (by omega) (by omega)
  rw [be32, be32, hload]

/-- A word that was stored is read back. -/
theorem be32_putBe32 (data : Region) (offset : ℕ) (value : UInt32) :
    be32 (putBe32 data offset value) offset = value := by
  have hbytes : (putBe32 data offset value).loadAt offset 4 = beBytes 4 value.toNat := by
    have hload := Region.load_store (fun target => data (offset + target)) (beBytes 4 value.toNat)
    rw [beBytes_length] at hload
    rw [putBe32, Region.loadAt_storeAt, hload]
  rw [be32, hbytes, beNat_beBytes_of_lt value.toNat_lt, UInt32.ofNat_toNat]

/-- Storing a word leaves the bytes outside of it. -/
theorem putBe32_of_outside (data : Region) {offset target : ℕ} (value : UInt32)
    (h : target < offset ∨ offset + 4 ≤ target) : putBe32 data offset value target = data target :=
  Region.storeAt_of_outside data (by rwa [beBytes_length])

section Fields

variable (tp : E1000Tx) (data : Region)

/-- The adjustments of the IP header stay within its length and identification. -/
theorem ipFields_of_outside {target : ℕ}
    (h : target < tp.ipcss.toNat + 2 ∨ tp.ipcss.toNat + 6 ≤ target) :
    ipFields tp data target = data target := by
  unfold ipFields
  dsimp only
  split
  · rw [putBe16_of_outside _ _ (by omega), putBe16_of_outside _ _ (by omega)]
  · rw [putBe16_of_outside _ _ (by omega)]

/-- The length in an IPv4 header is that of the data from the header on. -/
theorem ipFields_length (hip : tp.ip ≠ 0) :
    be16 (ipFields tp data) (tp.ipcss.toNat + 2) = tp.size - tp.ipcss.toUInt16 := by
  unfold ipFields
  dsimp only
  rw [if_pos hip, be16_congr fun i _ _ => putBe16_of_outside _ _ (by omega), be16_putBe16]

/-- The identification in an IPv4 header counts the segments on. -/
theorem ipFields_identification (hip : tp.ip ≠ 0) :
    be16 (ipFields tp data) (tp.ipcss.toNat + 4) =
      be16 data (tp.ipcss.toNat + 4) + tp.tsoFrames := by
  unfold ipFields
  dsimp only
  rw [if_pos hip, be16_putBe16, be16_congr fun i _ _ => putBe16_of_outside data _ (by omega)]

/-- The adjustments of the TCP header stay within its sequence number and flags. -/
theorem tcpFields_of_outside {target : ℕ}
    (h : target < tp.tucss.toNat + 4 ∨ tp.tucss.toNat + 8 ≤ target)
    (hflags : target ≠ tp.tucss.toNat + 13) : tcpFields tp data target = data target := by
  unfold tcpFields
  split
  · rw [setReg_of_ne _ _ hflags, putBe32_of_outside _ _ h]
  · rw [putBe32_of_outside _ _ h]

/-- The sequence number is moved on by the payload sent so far. -/
theorem tcpFields_sequence :
    be32 (tcpFields tp data) (tp.tucss.toNat + 4) = be32 data (tp.tucss.toNat + 4) + sofar tp := by
  unfold tcpFields
  dsimp only
  split
  · rw [be32_congr fun i _ _ => setReg_of_ne _ _ (by omega), be32_putBe32]
  · rw [be32_putBe32]

/-- The flags: `PSH` and `FIN` are cleared if more segments follow. -/
theorem tcpFields_flags :
    tcpFields tp data (tp.tucss.toNat + 13) =
      if tp.paylen - sofar tp > tp.mss.toUInt32 then data (tp.tucss.toNat + 13) &&& ~~~ 9
      else data (tp.tucss.toNat + 13) := by
  unfold tcpFields
  split
  · rw [setReg_self, putBe32_of_outside _ _ (by omega)]
  · rw [putBe32_of_outside _ _ (by omega)]

/-- The length is added within the checksum. -/
theorem pseudoHeader_of_outside {target : ℕ}
    (h : target < tp.tucso.toNat ∨ tp.tucso.toNat + 2 ≤ target) :
    pseudoHeader tp data target = data target := by
  unfold pseudoHeader
  dsimp only
  split
  · rw [putBe16_of_outside _ _ h]
  · rfl

/-- The checksums are inserted in their places. -/
theorem insertSums_of_outside {target : ℕ}
    (htcp : target < tp.tucso.toNat ∨ tp.tucso.toNat + 2 ≤ target)
    (hip : target < tp.ipcso.toNat ∨ tp.ipcso.toNat + 2 ≤ target) :
    insertSums tp data target = data target := by
  have hput (data : Region) {sloc : UInt8} (h : target < sloc.toNat ∨ sloc.toNat + 2 ≤ target)
      (n css cse : UInt32) :
      putsum data n sloc.toUInt32 css cse target = data target :=
    putsum_of_outside data n css cse (by rwa [UInt8.toNat_toUInt32])
  unfold insertSums
  split
  · rw [hput _ hip]
    split
    · rw [hput _ htcp]
    · rfl
  · split
    · rw [hput _ htcp]
    · rfl

end Fields

/-- Insert a VLAN tag behind the addresses, if one is needed. -/
def insertTag (u : TxUnsaved) (bytes : List UInt8) : List UInt8 :=
  if u.vlanNeeded then bytes.take 12 ++ u.vlanHeader ++ bytes.drop 12 else bytes

/-- The packet that is sent is the data with the VLAN tag inserted. -/
theorem outgoing_eq_insertTag {u : TxUnsaved} {count : ℕ} (hvlan : u.vlanNeeded = true → 12 ≤ count)
    (hheader : u.vlanNeeded = true → u.vlanHeader.length = 4) (data : Region) :
    (outgoing u data count).1 = insertTag u (data.load count) := by
  unfold outgoing insertTag
  split
  · rename_i hneeded
    have hlong : 12 ≤ count := hvlan hneeded
    have hfour : u.vlanHeader.length = 4 := hheader hneeded
    have haddresses : (data.load count).take 12 = data.load 4 ++ data.loadAt 4 8 := by
      rw [Region.take_load data hlong, ← Region.load_add]
    have hrest : (data.load count).drop 12 = data.loadAt 12 (count - 12) := by
      conv_lhs => rw [show count = 12 + (count - 12) by omega, Region.load_add]
      rw [List.drop_left' (Region.load_length _ _)]
    -- the front holds the rest of the addresses, the tag, and what was behind them
    have hmoved : (Region.storeAt (data.store (data.loadAt 4 8)) 8 u.vlanHeader).load count =
        data.loadAt 4 8 ++ u.vlanHeader ++ data.loadAt 12 (count - 12) := by
      have hfront := Region.load_storeAt_append (data.store (data.loadAt 4 8)) 8 u.vlanHeader
      have hstored := Region.load_store data (data.loadAt 4 8)
      rw [Region.loadAt_length] at hstored
      rw [hstored, hfour] at hfront
      conv_lhs => rw [show count = 8 + 4 + (count - 12) by omega, Region.load_add, hfront]
      refine congrArg _ (Region.load_eq_load_iff.mpr fun i hi => ?_)
      rw [Region.storeAt_of_outside _ (by omega), Region.store,
        List.getD_eq_default _ _ (by rw [Region.loadAt_length]; omega)]
    rw [haddresses, hrest]
    change data.load 4 ++ _ = _
    rw [hmoved]
    simp only [List.append_assoc]
  · rfl

/-- A context for TCP over IPv4: the headers follow each other, and their checksums lie behind the
other fields that are adjusted. -/
structure TcpLayout (c : E1000Tx) : Prop where
  ip : c.ip ≠ 0
  tcp : c.tcp ≠ 0
  ipSum : c.ipcss.toNat + 6 ≤ c.ipcso.toNat
  ipEnd : c.ipcso.toNat + 2 ≤ c.tucss.toNat
  tcpSum : c.tucss.toNat + 14 ≤ c.tucso.toNat
  tcpEnd : c.tucso.toNat + 2 ≤ headerLength c

/-- The bytes of the header that are adjusted. -/
def Adjusted (c : E1000Tx) (i : ℕ) : Prop :=
  c.ipcss.toNat + 2 ≤ i ∧ i < c.ipcss.toNat + 6 ∨ c.ipcso.toNat ≤ i ∧ i < c.ipcso.toNat + 2 ∨
    c.tucss.toNat + 4 ≤ i ∧ i < c.tucss.toNat + 8 ∨ i = c.tucss.toNat + 13 ∨
    c.tucso.toNat ≤ i ∧ i < c.tucso.toNat + 2

/-- The frame is segment `j` of the packet: it has its part of the payload behind the packet's
header, in which the sequence number and the identification have advanced and the length is its own.
The flags `PSH` and `FIN` are cleared where `paylen` says that more than this segment is left. -/
structure IsSegment (c : E1000Tx) (packet : List UInt8) (j : ℕ) (frame : List UInt8) : Prop where
  payload : frame.drop (headerLength c) =
    ((packet.drop (headerLength c)).drop (payloadLength c * j)).take
    (payloadLength c)
  sequence : be32 (Region.ofBytes frame) (c.tucss.toNat + 4) =
    be32 (Region.ofBytes packet) (c.tucss.toNat + 4) + UInt32.ofNat (j % 2 ^ 16 * payloadLength c)
  flags : Region.ofBytes frame (c.tucss.toNat + 13) =
    if c.paylen - UInt32.ofNat (j % 2 ^ 16 * payloadLength c) > c.mss.toUInt32 then
      Region.ofBytes packet (c.tucss.toNat + 13) &&& ~~~ 9
    else Region.ofBytes packet (c.tucss.toNat + 13)
  length : (be16 (Region.ofBytes frame) (c.ipcss.toNat + 2)).toNat = frame.length - c.ipcss.toNat
  identification : be16 (Region.ofBytes frame) (c.ipcss.toNat + 4) =
    be16 (Region.ofBytes packet) (c.ipcss.toNat + 4) + UInt16.ofNat j
  rest : ∀ i < headerLength c, ¬ Adjusted c i → Region.ofBytes frame i = Region.ofBytes packet i

/-- If `paylen` is the length of the packet's payload, the flags are cleared exactly in the segments
that payload follows. -/
theorem IsSegment.flags_of_paylen {c : E1000Tx} {packet frame : List UInt8} {j : ℕ}
    (h : IsSegment c packet j frame) (hpaylen : c.paylen.toNat = packet.length - headerLength c)
    (hj : j < 2 ^ 16)
    (hstart : payloadLength c * j ≤ packet.length - headerLength c) :
    Region.ofBytes frame (c.tucss.toNat + 13) =
      if payloadLength c * (j + 1) < packet.length - headerLength c then
        Region.ofBytes packet (c.tucss.toNat + 13) &&& ~~~ 9
      else Region.ofBytes packet (c.tucss.toNat + 13) := by
  have hpaylenLt := c.paylen.toNat_lt
  have hdone : (UInt32.ofNat (j % 2 ^ 16 * payloadLength c)).toNat = payloadLength c * j := by
    rw [Nat.mod_eq_of_lt hj, Nat.mul_comm, UInt32.toNat_ofNat', Nat.mod_eq_of_lt (by omega)]
  have hleft : (c.paylen - UInt32.ofNat (j % 2 ^ 16 * payloadLength c)).toNat =
      packet.length - headerLength c - payloadLength c * j := by
    rw [UInt32.toNat_sub_of_le _ _ (UInt32.le_iff_toNat_le.mpr (by omega)), hdone, hpaylen]
  have hmss : c.mss.toUInt32.toNat = payloadLength c := UInt16.toNat_toUInt32 _
  have hmore : c.paylen - UInt32.ofNat (j % 2 ^ 16 * payloadLength c) > c.mss.toUInt32 ↔
      payloadLength c * (j + 1) < packet.length - headerLength c := by
    rw [gt_iff_lt, UInt32.lt_iff_toNat_lt, hmss, hleft, Nat.mul_add, Nat.mul_one]
    omega
  rw [h.flags]
  exact if_congr hmore rfl rfl

/-- `tx.data` with the headers of a segment completed. -/
def segmentData (tp : E1000Tx) : Region := insertSums tp (segmentHeader tp)

/-- A segment with its headers completed, before a VLAN tag is inserted. -/
def untaggedSegment (c : E1000Tx) (packet : List UInt8) (j : ℕ) : List UInt8 :=
  let bytes := segment (headerLength c) (payloadLength c) packet j
  (segmentData (holdingBytes c (UInt16.ofNat j) bytes)).load bytes.length

section Segment

variable {tp : E1000Tx} (hlayout : TcpLayout tp)
include hlayout

/-- The checksums do not touch the other fields. -/
theorem segmentData_eq_tcpFields {i : ℕ} (htcp : i < tp.tucso.toNat ∨ tp.tucso.toNat + 2 ≤ i)
    (hip : i < tp.ipcso.toNat ∨ tp.ipcso.toNat + 2 ≤ i) :
    segmentData tp i = tcpFields tp (ipFields tp tp.data) i := by
  rw [segmentData, insertSums_of_outside _ _ htcp hip, segmentHeader,
    pseudoHeader_of_outside _ _ htcp, transportFields, if_pos hlayout.tcp]

/-- A byte that is not adjusted is that of the packet's data. -/
theorem segmentData_of_not_adjusted {i : ℕ} (h : ¬ Adjusted tp i) :
    segmentData tp i = tp.data i := by
  unfold Adjusted at h
  rw [segmentData_eq_tcpFields hlayout (by omega) (by omega),
    tcpFields_of_outside _ _ (by omega) (by omega), ipFields_of_outside _ _ (by omega)]

/-- The sequence number of a segment is moved on by the payload sent so far. -/
theorem segmentData_sequence :
    be32 (segmentData tp) (tp.tucss.toNat + 4) = be32 tp.data (tp.tucss.toNat + 4) + sofar tp := by
  have hipSum := hlayout.ipSum
  have hipEnd := hlayout.ipEnd
  have htcpSum := hlayout.tcpSum
  rw [be32_congr fun i _ _ => segmentData_eq_tcpFields hlayout (by omega) (by omega),
    tcpFields_sequence, be32_congr fun i _ _ => ipFields_of_outside tp tp.data (by omega)]

/-- A segment that is not the last one has neither `FIN` nor `PSH`; the last has the packet's flags.
-/
theorem segmentData_flags :
    segmentData tp (tp.tucss.toNat + 13) =
      if tp.paylen - sofar tp > tp.mss.toUInt32 then tp.data (tp.tucss.toNat + 13) &&& ~~~ 9
      else tp.data (tp.tucss.toNat + 13) := by
  have hipSum := hlayout.ipSum
  have hipEnd := hlayout.ipEnd
  have htcpSum := hlayout.tcpSum
  rw [segmentData_eq_tcpFields hlayout (by omega) (by omega), tcpFields_flags,
    ipFields_of_outside _ _ (by omega)]

/-- The IP header of a segment has the length from the header on. -/
theorem segmentData_length :
    be16 (segmentData tp) (tp.ipcss.toNat + 2) = tp.size - tp.ipcss.toUInt16 := by
  have hipSum := hlayout.ipSum
  have hipEnd := hlayout.ipEnd
  have htcpSum := hlayout.tcpSum
  rw [be16_congr fun i _ _ => (segmentData_eq_tcpFields hlayout (by omega) (by omega)).trans
    (tcpFields_of_outside tp _ (by omega) (by omega)), ipFields_length _ _ hlayout.ip]

/-- The identification of a segment is the packet's and the segment's number. -/
theorem segmentData_identification :
    be16 (segmentData tp) (tp.ipcss.toNat + 4) =
      be16 tp.data (tp.ipcss.toNat + 4) + tp.tsoFrames := by
  have hipSum := hlayout.ipSum
  have hipEnd := hlayout.ipEnd
  have htcpSum := hlayout.tcpSum
  rw [be16_congr fun i _ _ => (segmentData_eq_tcpFields hlayout (by omega) (by omega)).trans
    (tcpFields_of_outside tp _ (by omega) (by omega)), ipFields_identification _ _ hlayout.ip]

end Segment

section Frames

variable {c : E1000Tx} {u : TxUnsaved} (hcuts : CutsSegments c u) {packet : List UInt8}
  (hlong : headerLength c ≤ packet.length)

omit hcuts in
include hlong in
/-- A segment begins with the packet's header. -/
theorem segment_of_lt_header (j : ℕ) {i : ℕ} (hi : i < headerLength c) :
    Region.ofBytes (segment (headerLength c) (payloadLength c) packet j) i =
      Region.ofBytes packet i := by
  rw [Segments.segment, Region.ofBytes_append_left (by rwa [List.length_take_of_le hlong]),
    Region.ofBytes_take hi]

omit hcuts in
include hlong in
/-- A segment is at least as long as the header. -/
theorem headerLength_le_segment (j : ℕ) :
    headerLength c ≤ (segment (headerLength c) (payloadLength c) packet j).length := by
  rw [segment_length]
  omega

include hcuts in
omit hlong in
/-- A segment fits `tx.data`. -/
theorem segment_length_lt (packet : List UInt8) (j : ℕ) :
    (segment (headerLength c) (payloadLength c) packet j).length < 2 ^ 16 := by
  have hroom := hcuts.room
  rw [segment_length]
  omega

/-- The frame of a segment is the segment with its headers completed and the tag inserted. -/
theorem segmentFrame_eq_insertTag (hheader : u.vlanNeeded = true → u.vlanHeader.length = 4) (j : ℕ)
    (hcuts : CutsSegments c u) (hlong : headerLength c ≤ packet.length) :
    segmentFrame c u packet j = insertTag u (untaggedSegment c packet j) := by
  have hvlan (hneeded : u.vlanNeeded = true) :
      12 ≤ (segment (headerLength c) (payloadLength c) packet j).length :=
    (hcuts.inside.vlan hneeded).trans (headerLength_le_segment hlong j)
  unfold segmentFrame frameOf
  dsimp only
  rw [if_pos hcuts.segmenting]
  exact outgoing_eq_insertTag hvlan hheader _

/-- Before segment `j` the device has sent `j` full payloads, with `j` cut to 16 bits. -/
theorem sofar_holdingBytes (j : ℕ) (bytes : List UInt8) :
    sofar (holdingBytes c (UInt16.ofNat j) bytes) =
      UInt32.ofNat (j % 2 ^ 16 * payloadLength c) := by
  apply UInt32.toNat_inj.mp
  change ((UInt16.ofNat j).toUInt32 * c.mss.toUInt32).toNat = _
  rw [UInt32.toNat_mul, UInt16.toNat_toUInt32, UInt16.toNat_toUInt32, UInt16.toNat_ofNat',
    UInt32.toNat_ofNat']
  rfl

/-- The segments are segments of the packet. -/
theorem isSegment_untaggedSegment (hlayout : TcpLayout c) (hcuts : CutsSegments c u)
    (hlong : headerLength c ≤ packet.length) (j : ℕ) :
    IsSegment c packet j (untaggedSegment c packet j) := by
  have hipSum := hlayout.ipSum
  have hipEnd := hlayout.ipEnd
  have htcpSum := hlayout.tcpSum
  have htcpEnd := hlayout.tcpEnd
  have hheader := headerLength_le_segment hlong j
  have hsmall := segment_length_lt hcuts packet j
  have hfront {i : ℕ} (hi : i < headerLength c) := segment_of_lt_header (c := c) hlong j hi
  unfold untaggedSegment
  dsimp only
  generalize hbytes : segment (headerLength c) (payloadLength c) packet j = bytes at *
  have hholding : TcpLayout (holdingBytes c (UInt16.ofNat j) bytes) :=
    ⟨hlayout.ip, hlayout.tcp, hlayout.ipSum, hlayout.ipEnd, hlayout.tcpSum, hlayout.tcpEnd⟩
  have hload :=
    Region.load_ofBytes_load (segmentData (holdingBytes c (UInt16.ofNat j) bytes)) bytes.length
  have hsofar := sofar_holdingBytes (c := c) j bytes
  refine ⟨?_, ?_, ?_, ?_, ?_, ?_⟩
  · have hpayload : bytes.drop (headerLength c) =
        ((packet.drop (headerLength c)).drop (payloadLength c * j)).take (payloadLength c) := by
      rw [← hbytes, Segments.segment, List.drop_left' (List.length_take_of_le hlong)]
    have hdrop (data : Region) : (data.load bytes.length).drop (headerLength c) =
        data.loadAt (headerLength c) (bytes.length - headerLength c) := by
      conv_lhs => rw [← Nat.add_sub_cancel' hheader, Region.load_add]
      rw [List.drop_left' (Region.load_length _ _)]
    have hsame : (segmentData (holdingBytes c (UInt16.ofNat j) bytes)).loadAt (headerLength c)
        (bytes.length - headerLength c) = (Region.ofBytes bytes).loadAt (headerLength c)
        (bytes.length - headerLength c) :=
      Region.load_eq_load_iff.mpr fun i _ => segmentData_of_not_adjusted hholding
        (by change ¬ Adjusted c _; unfold Adjusted; omega)
    rw [hdrop, hsame, ← hdrop, Region.load_ofBytes, hpayload]
  · have hseq : be32 (Region.ofBytes bytes) (c.tucss.toNat + 4) =
        be32 (Region.ofBytes packet) (c.tucss.toNat + 4) :=
      be32_congr fun i _ _ => hfront (by omega)
    rw [be32_of_load_eq hload (by omega), ← hseq, ← hsofar]
    exact segmentData_sequence hholding
  · rw [Region.apply_of_load_eq hload (by omega),
      ← hfront (by omega : c.tucss.toNat + 13 < headerLength c), ← hsofar]
    exact segmentData_flags hholding
  · have hlength : be16 (segmentData (holdingBytes c (UInt16.ofNat j) bytes)) (c.ipcss.toNat + 2) =
        UInt16.ofNat bytes.length - c.ipcss.toUInt16 := segmentData_length hholding
    have hnat : (UInt16.ofNat bytes.length).toNat = bytes.length := UInt16.toNat_ofNat_of_lt hsmall
    rw [be16_of_load_eq hload (by omega), Region.load_length, hlength, UInt16.toNat_sub_of_le, hnat,
      UInt8.toNat_toUInt16]
    rw [UInt16.le_iff_toNat_le, hnat, UInt8.toNat_toUInt16]
    omega
  · have hid : be16 (Region.ofBytes bytes) (c.ipcss.toNat + 4) =
        be16 (Region.ofBytes packet) (c.ipcss.toNat + 4) :=
      be16_congr fun i _ _ => hfront (by omega)
    rw [be16_of_load_eq hload (by omega), ← hid]
    exact segmentData_identification hholding
  · intro i hi hnot
    rw [Region.apply_of_load_eq hload (by omega), segmentData_of_not_adjusted hholding hnot]
    exact hfront hi

end Frames

end VirtualFirmware.Network
