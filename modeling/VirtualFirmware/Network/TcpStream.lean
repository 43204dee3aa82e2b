import VirtualFirmware.Network.SegmentHeaders
import VirtualFirmware.Network.Sender

/-!
# A TCP packet and its segments

The segments of a packet for TCP over IPv4 carry its payload, each at its place in the stream, and
a receiver accepts their checksums. If the payload is a multiple of the segment size, a segment
without payload follows.
-/

namespace VirtualFirmware.Network

open Library Device OnesComplement Segments

/-- The segments of the packet, before a VLAN tag is inserted. -/
def untaggedSegments (s : Sender) : List (List UInt8) :=
  (List.range (full (headerLength s.context) (payloadLength s.context) s.packet + 1)).map
    (untaggedSegment s.context s.packet)

/-- The frames are the segments with the VLAN tag inserted. -/
theorem frames_eq_insertTag {s : Sender} (hcuts : CutsSegments s.context s.options)
    (hlong : headerLength s.context ≤ s.packet.length)
    (hheader : s.options.vlanNeeded = true → s.options.vlanHeader.length = 4) :
    s.frames = (untaggedSegments s).map (insertTag s.options) := by
  rw [Sender.frames, if_pos hcuts.segmenting, Sender.segments, if_neg (Nat.not_lt.mpr hlong),
    untaggedSegments, List.map_map]
  exact List.map_congr_left fun j _ => segmentFrame_eq_insertTag hheader j hcuts hlong

/-- The headers of a packet for TCP over IPv4 on Ethernet, from 10.0.0.1 to 10.0.0.2. The driver
leaves zero for the checksum of the IP header, and the sum of the pseudo-header without the length
for that of TCP. -/
def tcpHeaders : List UInt8 :=
  [0x52, 0x54, 0, 0, 0, 2, 0x52, 0x54, 0, 0, 0, 1, 0x08, 0x00] ++
  [0x45, 0, 0, 0xf0, 0x12, 0x34, 0x40, 0, 64, 6, 0, 0, 10, 0, 0, 1, 10, 0, 0, 2] ++
  [0x80, 0, 0, 80, 0, 0, 0x10, 0, 0, 0, 0x20, 0, 0x50, 0x19, 0xff, 0xff, 0x14, 0x09, 0, 0]

/-- A packet with 200 bytes of payload that go into segments of 100. -/
def tcpSender : Sender where
  context :=
    { (default : E1000Tx) with
      sumNeeded := 3
      ipcss := 14
      ipcso := 24
      ipcse := 33
      tucss := 34
      tucso := 50
      hdrLen := 54
      mss := 100
      paylen := 200
      ip := 1
      tcp := 1 }
  options := ⟨[], false, true, true⟩
  packet := tcpHeaders ++ (List.range 200).map UInt8.ofNat
  sent := []

/-- The context of `tcpSender` is one that cuts segments. -/
theorem tcpSender_cuts : CutsSegments tcpSender.context tcpSender.options where
  segmenting := rfl
  payload := by decide
  room := by decide
  inside := ⟨by decide, by decide, by decide, by decide⟩

/-- A context whose checksums cover what they are meant to: that of the IP header lies within it,
and that of the TCP header covers the segment to its end. -/
structure SumLayout (c : E1000Tx) : Prop extends TcpLayout c where
  ipEven : (c.ipcso.toNat - c.ipcss.toNat) % 2 = 0
  ipStop : c.ipcso.toNat < c.ipcse.toNat
  ipHeader : c.ipcse.toNat < c.tucss.toNat
  tcpEven : (c.tucso.toNat - c.tucss.toNat) % 2 = 0
  tcpStop : c.tucse = 0

section Sums

variable {tp : E1000Tx} (hlayout : SumLayout tp)
include hlayout

/-- What the driver left in the place of the TCP checksum is there until the length is added. -/
theorem transportFields_tucso :
    be16 (transportFields tp (ipFields tp tp.data)) tp.tucso.toNat =
      be16 tp.data tp.tucso.toNat := by
  have hipSum := hlayout.ipSum
  have hipEnd := hlayout.ipEnd
  have htcpSum := hlayout.tcpSum
  rw [transportFields, if_pos hlayout.tcp]
  exact be16_congr fun i _ _ => (tcpFields_of_outside tp _ (by omega) (by omega)).trans
    (ipFields_of_outside tp _ (by omega))

/-- The length of the segment added to what the driver left, with the carry folded. -/
theorem pseudoHeader_tucso (htxsm : tp.sumNeeded &&& txdPoptsTxsm ≠ 0) :
    (be16 (segmentHeader tp) tp.tucso.toNat).toUInt32 =
      (((be16 tp.data tp.tucso.toNat).toUInt32 + (transportLen tp).toUInt32) >>> 16) +
        (((be16 tp.data tp.tucso.toNat).toUInt32 + (transportLen tp).toUInt32) &&& 0xffff) := by
  have hleft := (be16 tp.data tp.tucso.toNat).toNat_lt
  have hlen := (transportLen tp).toNat_lt
  unfold segmentHeader pseudoHeader
  dsimp only
  rw [if_pos htxsm, be16_putBe16, transportFields_tucso hlayout]
  generalize hsum : (be16 tp.data tp.tucso.toNat).toUInt32 + (transportLen tp).toUInt32 = sum
  have hnat : sum.toNat = (be16 tp.data tp.tucso.toNat).toNat + (transportLen tp).toNat := by
    rw [← hsum, UInt32.toNat_add, UInt16.toNat_toUInt32, UInt16.toNat_toUInt32,
      Nat.mod_eq_of_lt (by omega)]
  have hfold := fold_toNat sum
  rw [UInt32.add_comm] at hfold
  apply UInt32.toNat_inj.mp
  rw [UInt16.toNat_toUInt32, UInt32.toNat_toUInt16, hfold, Nat.mod_eq_of_lt (by omega)]

/-- The data with the checksum of the TCP header inserted. -/
def withTcpSum (tp : E1000Tx) : Region :=
  if tp.sumNeeded &&& txdPoptsTxsm ≠ 0 then
    putsum (segmentHeader tp) tp.size.toUInt32 tp.tucso.toUInt32 tp.tucss.toUInt32 tp.tucse.toUInt32
  else segmentHeader tp

omit hlayout in
/-- In front of the TCP checksum nothing has changed. -/
theorem withTcpSum_of_lt {i : ℕ} (h : i < tp.tucso.toNat) :
    withTcpSum tp i = segmentHeader tp i := by
  unfold withTcpSum
  split
  · exact putsum_of_outside _ _ _ _ (.inl (by rwa [UInt8.toNat_toUInt32]))
  · rfl

omit hlayout in
/-- The checksum of the IP header is inserted behind that of the TCP header. -/
theorem segmentData_eq_withTcpSum {i : ℕ} (h : i < tp.ipcso.toNat ∨ tp.ipcso.toNat + 2 ≤ i) :
    segmentData tp i = withTcpSum tp i := by
  change (if tp.sumNeeded &&& txdPoptsIxsm ≠ 0 then putsum (withTcpSum tp) _ _ _ _
    else withTcpSum tp) i = _
  split
  · exact putsum_of_outside _ _ _ _ (by rwa [UInt8.toNat_toUInt32])
  · rfl

/-- A receiver that adds the segment, what the driver left for the pseudo-header, and the length,
accepts. -/
theorem receiverSum_tcp (htxsm : tp.sumNeeded &&& txdPoptsTxsm ≠ 0)
    (hlong : tp.tucso.toNat + 2 ≤ tp.size.toNat) :
    receiverSum (segmentData tp) tp.tucss.toNat tp.size.toNat
      ((be16 tp.data tp.tucso.toNat).toUInt32 + (transportLen tp).toUInt32) = 0 := by
  have hipEnd := hlayout.ipEnd
  have htcpSum := hlayout.tcpSum
  have hsize := tp.size.toNat_lt
  have hadded : ((be16 tp.data tp.tucso.toNat).toUInt32 + (transportLen tp).toUInt32).toNat <
      2 ^ 17 := by
    have hleft := (be16 tp.data tp.tucso.toNat).toNat_lt
    have hlen := (transportLen tp).toNat_lt
    rw [UInt32.toNat_add, UInt16.toNat_toUInt32, UInt16.toNat_toUInt32]
    omega
  have hstop : (sumEnd tp.size.toUInt32 tp.tucse.toUInt32).toNat = tp.size.toNat := by
    rw [hlayout.tcpStop, sumEnd, if_neg (by simp), UInt16.toNat_toUInt32]
  have hput :=
    receiverSum_putsum_field (segmentHeader tp) hstop (by omega) hlayout.tcpEven hlong hsize.le
  rw [pseudoHeader_tucso hlayout htxsm] at hput
  have hdata (i : ℕ) (hi : tp.tucss.toNat ≤ i) : segmentData tp i =
      putsum (segmentHeader tp) tp.size.toUInt32 tp.tucso.toUInt32 tp.tucss.toUInt32
        tp.tucse.toUInt32 i := by
    rw [segmentData_eq_withTcpSum (by omega), withTcpSum, if_pos htxsm]
  rw [receiverSum_congr fun i hi _ => hdata i hi]
  exact receiverSum_fold hsize.le hadded hput

/-- A receiver that adds the IP header accepts, if the driver left zero in the place of the
checksum. -/
theorem receiverSum_ip (hixsm : tp.sumNeeded &&& txdPoptsIxsm ≠ 0)
    (hlong : tp.tucso.toNat + 2 ≤ tp.size.toNat) :
    receiverSum (segmentData tp) tp.ipcss.toNat (tp.ipcse.toNat + 1)
      (be16 tp.data tp.ipcso.toNat).toUInt32 = 0 := by
  have hipSum := hlayout.ipSum
  have hipEnd := hlayout.ipEnd
  have htcpSum := hlayout.tcpSum
  have hipStop := hlayout.ipStop
  have hipHeader := hlayout.ipHeader
  have hsize := tp.size.toNat_lt
  have hcse : tp.ipcse.toUInt32.toNat = tp.ipcse.toNat := UInt16.toNat_toUInt32 _
  have hone : (1 : UInt32).toNat = 1 := rfl
  have hcovers : tp.ipcse.toUInt32 ≠ 0 ∧ tp.ipcse.toUInt32 < tp.size.toUInt32 := by
    constructor
    · intro hzero
      rw [hzero] at hcse
      have : (0 : UInt32).toNat = 0 := rfl
      omega
    · rw [UInt32.lt_iff_toNat_lt, hcse, UInt16.toNat_toUInt32]
      omega
  have hstop : (sumEnd tp.size.toUInt32 tp.ipcse.toUInt32).toNat = tp.ipcse.toNat + 1 := by
    rw [sumEnd, if_pos hcovers, UInt32.toNat_add, hcse, hone, Nat.mod_eq_of_lt (by omega)]
  have hput :=
    receiverSum_putsum_field (withTcpSum tp) hstop (by omega) hlayout.ipEven (by omega) (by omega)
  have hbefore : be16 (withTcpSum tp) tp.ipcso.toNat = be16 tp.data tp.ipcso.toNat :=
    be16_congr fun i _ _ => by
      rw [withTcpSum_of_lt (by omega), segmentHeader, pseudoHeader_of_outside _ _ (by omega),
        transportFields, if_pos hlayout.tcp, tcpFields_of_outside _ _ (by omega) (by omega),
        ipFields_of_outside _ _ (by omega)]
  rw [hbefore] at hput
  have hdata : segmentData tp =
      putsum (withTcpSum tp) tp.size.toUInt32 tp.ipcso.toUInt32 tp.ipcss.toUInt32
      tp.ipcse.toUInt32 := if_pos hixsm
  rw [hdata]
  exact hput

end Sums

/-- A receiver accepts the checksums of every segment: that of the TCP header together with what the
driver left for the pseudo-header and the length of the segment, and that of the IP header together
with what the driver left in its place. -/
theorem segments_checksums_accepted (s : Sender) (hcuts : CutsSegments s.context s.options)
    (hsums : SumLayout s.context) (hlong : headerLength s.context ≤ s.packet.length)
    (hheader : s.options.vlanNeeded = true → s.options.vlanHeader.length = 4) :
    ∃ frames : List (List UInt8), s.frames = frames.map (insertTag s.options) ∧ ∀ frame ∈ frames,
      (s.context.sumNeeded &&& txdPoptsTxsm ≠ 0 →
        receiverSum (Region.ofBytes frame) s.context.tucss.toNat frame.length
          ((be16 (Region.ofBytes s.packet) s.context.tucso.toNat).toUInt32 +
            UInt32.ofNat (frame.length - s.context.tucss.toNat)) = 0) ∧
      (s.context.sumNeeded &&& txdPoptsIxsm ≠ 0 →
        receiverSum (Region.ofBytes frame) s.context.ipcss.toNat (s.context.ipcse.toNat + 1)
          (be16 (Region.ofBytes s.packet) s.context.ipcso.toNat).toUInt32 = 0) := by
  have hipSum := hsums.ipSum
  have hipEnd := hsums.ipEnd
  have htcpSum := hsums.tcpSum
  have htcpEnd := hsums.tcpEnd
  have hipHeader := hsums.ipHeader
  refine ⟨untaggedSegments s, frames_eq_insertTag hcuts hlong hheader, fun frame hframe => ?_⟩
  obtain ⟨j, -, rfl⟩ := List.mem_map.mp hframe
  have hlength := headerLength_le_segment hlong j
  have hsmall := segment_length_lt hcuts s.packet j
  have hfront {i : ℕ} (hi : i < headerLength s.context) :=
    segment_of_lt_header (c := s.context) hlong j hi
  unfold untaggedSegment
  dsimp only
  rw [Region.load_length]
  generalize segment (headerLength s.context) (payloadLength s.context) s.packet j = bytes at *
  have hholding : SumLayout (holdingBytes s.context (UInt16.ofNat j) bytes) :=
    ⟨⟨hsums.ip, hsums.tcp, hsums.ipSum, hsums.ipEnd, hsums.tcpSum, hsums.tcpEnd⟩, hsums.ipEven,
      hsums.ipStop, hsums.ipHeader, hsums.tcpEven, hsums.tcpStop⟩
  have hload :=
    Region.load_ofBytes_load (segmentData (holdingBytes s.context (UInt16.ofNat j) bytes))
      bytes.length
  have hnat : (UInt16.ofNat bytes.length).toNat = bytes.length := UInt16.toNat_ofNat_of_lt hsmall
  have hsize : (holdingBytes s.context (UInt16.ofNat j) bytes).size.toNat = bytes.length := hnat
  have hleft {offset : ℕ} (h : offset + 2 ≤ headerLength s.context) :
      be16 (Region.ofBytes s.packet) offset = be16 (Region.ofBytes bytes) offset :=
    be16_congr fun i _ _ => (hfront (by omega)).symm
  constructor
  · intro htxsm
    have hlen : (transportLen (holdingBytes s.context (UInt16.ofNat j) bytes)).toUInt32 =
        UInt32.ofNat (bytes.length - s.context.tucss.toNat) := by
      have hle : s.context.tucss.toUInt16 ≤ UInt16.ofNat bytes.length := by
        rw [UInt16.le_iff_toNat_le, UInt8.toNat_toUInt16, hnat]
        omega
      apply UInt32.toNat_inj.mp
      change (UInt16.ofNat bytes.length - s.context.tucss.toUInt16).toUInt32.toNat = _
      rw [UInt16.toNat_toUInt32, UInt16.toNat_sub_of_le _ _ hle, hnat, UInt8.toNat_toUInt16,
        UInt32.toNat_ofNat', Nat.mod_eq_of_lt (by omega)]
    have haccept :=
      receiverSum_tcp hholding htxsm (by rw [hsize]; change s.context.tucso.toNat + 2 ≤ _; omega)
    rw [hlen, hsize] at haccept
    rw [hleft htcpEnd, receiverSum_congr fun i _ hi => Region.apply_of_load_eq hload hi]
    exact haccept
  · intro hixsm
    have haccept :=
      receiverSum_ip hholding hixsm (by rw [hsize]; change s.context.tucso.toNat + 2 ≤ _; omega)
    rw [hleft (by omega), receiverSum_congr fun i _ hi => Region.apply_of_load_eq hload (by omega)]
    exact haccept

/-- The segments of the packet above are accepted: the IP header adds up to zero, and so does the
TCP part with the pseudo-header, which has the addresses, the protocol and the length of the
segment. -/
theorem segments_checksums_accepted_tcpSender :
    ∃ frames : List (List UInt8),
      tcpSender.frames = frames.map (insertTag tcpSender.options) ∧
        ∀ frame ∈ frames, receiverSum (Region.ofBytes frame) 34 frame.length
        (0x0a00 + 0x0001 + 0x0a00 + 0x0002 + 6 + UInt32.ofNat (frame.length - 34)) = 0 ∧
      receiverSum (Region.ofBytes frame) 14 34 0 = 0 := by
  obtain ⟨frames, hframes, haccepted⟩ := segments_checksums_accepted tcpSender tcpSender_cuts
    ⟨⟨by decide, by decide, by decide, by decide, by decide, by decide⟩, by decide, by decide,
      by decide, by decide, by decide⟩ (by decide +kernel) (by decide)
  have htcp : (be16 (Region.ofBytes tcpSender.packet) tcpSender.context.tucso.toNat).toUInt32 =
      0x0a00 + 0x0001 + 0x0a00 + 0x0002 + 6 := by decide +kernel
  have hip : (be16 (Region.ofBytes tcpSender.packet) tcpSender.context.ipcso.toNat).toUInt32 =
      0 := by
    decide +kernel
  refine ⟨frames, hframes, fun frame hframe => ⟨?_, ?_⟩⟩
  · rw [← htcp]
    exact (haccepted frame hframe).1 (by decide)
  · rw [← hip]
    exact (haccepted frame hframe).2 (by decide)

end VirtualFirmware.Network
