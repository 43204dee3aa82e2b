import VirtualFirmware.Network.Segmentation

/-!
# What the transmit path is for

An abstract sender collects the bytes of a packet and makes frames of them when the packet is
complete: one frame, or one for each segment. The device sends segments as soon as they are full and
works in fixed buffers; under a driver that keeps to the rules it sends what the sender does.
-/

namespace VirtualFirmware.Network

open Library Device Segments

/-- A sender: the context and options that descriptors have set, the bytes of the current packet,
and the frames of the packets that are complete. -/
structure Sender where
  context : E1000Tx
  options : TxUnsaved
  packet : List UInt8
  sent : List (List UInt8)

/-- How VLAN tags are inserted, which the registers say. -/
structure Tagging where
  enabled : Bool
  type : UInt16

namespace Sender

/-- The frames of a packet that is cut into segments, none if the header is not complete. Behind the
last full segment there is one more, which may consist of the header only. -/
def segments (s : Sender) : List (List UInt8) :=
  if s.packet.length < headerLength s.context then []
  else (List.range (full (headerLength s.context) (payloadLength s.context) s.packet + 1)).map
    (segmentFrame s.context s.options s.packet)

/-- The frames of the packet. -/
def frames (s : Sender) : List (List UInt8) :=
  if s.options.segmenting then s.segments else [frameOf s.context s.options 0 s.packet]

/-- A context descriptor. -/
def loadContext (xp : TxDesc) (s : Sender) : Sender :=
  { s with context := loadedContext xp s.context, options := loadedTse xp s.options }

/-- The options of a data descriptor. -/
def loadOptions (tags : Tagging) (dp : TxDesc) (s : Sender) : Sender :=
  { s with
    context := loadedSums dp s.context
    options := loadedVlan tags.enabled tags.type dp { s.options with cptse := dp.isTse } }

/-- The packet is complete. -/
def finish (s : Sender) : Sender :=
  { context := { s.context with sumNeeded := 0 }
    options := { s.options with vlanNeeded := false, cptse := false }
    packet := []
    sent := s.sent ++ s.frames }

/-- Take the bytes of a data descriptor. -/
def append (bytes : List UInt8) (s : Sender) : Sender := { s with packet := s.packet ++ bytes }

/-- Take a descriptor with the bytes it points to. -/
def take (tags : Tagging) (dp : TxDesc) (bytes : List UInt8) (s : Sender) : Sender :=
  if dp.isContext then s.loadContext dp
  else
    let s := (s.loadOptions tags dp).append bytes
    if dp.isEop then s.finish else s

/-- A data descriptor whose options have been loaded fits a packet that is cut into segments: the
context is a proper one, and the options stay the same within a packet. -/
structure FitsSegments (before after : Sender) : Prop where
  cuts : CutsSegments after.context after.options
  same : before.packet ≠ [] → after.context = before.context ∧ after.options = before.options

/-- A data descriptor whose options have been loaded fits a packet that is sent as it is: no
segments are asked for within a packet, the packet fits `tx.data`, and it is long enough for a VLAN
tag. -/
structure FitsPlain (before after : Sender) (dp : TxDesc) (bytes : List UInt8) : Prop where
  whole : after.options.cptse = false
  same : before.packet ≠ [] → before.options.segmenting = false
  room : (before.packet ++ bytes).length < 2 ^ 16
  vlan : dp.isEop = true → after.options.vlanNeeded = true → 12 ≤ (before.packet ++ bytes).length

/-- The driver keeps to the rules: context descriptors come between packets, and data descriptors
fit the packet they belong to. -/
def Accepts (tags : Tagging) (s : Sender) (dp : TxDesc) (bytes : List UInt8) : Prop :=
  if dp.isContext then s.packet = []
  else
    let after := s.loadOptions tags dp
    if after.options.segmenting then FitsSegments s after else FitsPlain s after dp bytes

end Sender

/-- The part of a packet that has been read, if the packet is sent as it is. -/
structure Collecting (c : E1000Tx) (u : TxUnsaved) (before : List (List UInt8))
    (packet : List UInt8) (n : Nic) :
    Prop where
  context : SameContext c n.dev.tx
  unsaved : n.txUnsaved = u
  size : n.dev.tx.size.toNat = packet.length
  data : Region.load n.dev.tx.data packet.length = packet
  frames : n.dev.tx.tsoFrames = 0
  sent : n.sent = before

/-- The device holds the sender's packet. -/
def Simulates (s : Sender) (n : Nic) : Prop :=
  if s.options.segmenting then Holding s.context s.options s.sent s.packet n
  else Collecting s.context s.options s.sent s.packet n

/-- Between packets the device holds nothing, whatever the next packet will be. -/
theorem simulates_of_packet_nil {s : Sender} (hpacket : s.packet = []) {n : Nic} :
    Simulates s n ↔ Collecting s.context s.options s.sent [] n := by
  have hholding : Holding s.context s.options s.sent [] n ↔
      Collecting s.context s.options s.sent [] n := by
    have hfull : full (headerLength s.context) (payloadLength s.context) ([] : List UInt8) = 0 :=
      full_of_length_le (Nat.zero_le _)
    have hframes : completeFrames s.context s.options [] = [] := by
      rw [completeFrames, hfull]
      rfl
    have hopen : openSegment s.context [] = [] := buffer_nil
    constructor
    · intro h
      refine ⟨h.context, h.unsaved, ?_, rfl, ?_, ?_⟩
      · rw [h.size, hopen]
      · rw [h.frames, hfull]
        rfl
      · rw [h.sent, hframes, List.append_nil]
    · intro h
      refine ⟨h.context, h.unsaved, ?_, ?_, ?_, ?_, ?_⟩
      · rw [h.size, hopen]
      · rw [hopen]
        rfl
      · intro hzero
        rw [Nat.le_zero.mp hzero]
        rfl
      · rw [h.frames, hfull]
        rfl
      · rw [h.sent, hframes, List.append_nil]
  unfold Simulates
  rw [hpacket]
  split
  · exact hholding
  · exact Iff.rfl

section Steps

variable {s : Sender} {c : E1000Tx} {u : TxUnsaved} {before : List (List UInt8)}
  {packet : List UInt8} {n : Nic}

/-- How the device's registers have VLAN tags inserted. -/
def taggingOf (n : Nic) : Tagging := ⟨vlanEnabled n.dev, vlanType n.dev⟩

/-- Between packets the device follows the sender through a context descriptor. -/
theorem Simulates.loadContext (h : Simulates s n) (hpacket : s.packet = []) (xp : TxDesc) :
    Simulates (s.loadContext xp) (Network.loadContext xp n) := by
  have hidle := (simulates_of_packet_nil hpacket).mp h
  refine (simulates_of_packet_nil (s := s.loadContext xp) hpacket).mpr ?_
  refine ⟨?_, congrArg (loadedTse xp) hidle.unsaved, hidle.size, rfl, rfl, hidle.sent⟩
  exact hidle.context.apply fun tp => contextOf (loadedContext xp tp)

/-- The device with the options of a descriptor loaded. -/
def withOptions (dp : TxDesc) (n : Nic) : Nic := loadVlan dp (loadPopts dp n)

/-- The options of a descriptor, for a packet that is sent as it is or has not begun. -/
theorem Collecting.withOptions (h : Collecting c u before packet n) (dp : TxDesc) :
    Collecting (loadedSums dp c)
      (loadedVlan (taggingOf n).enabled (taggingOf n).type dp { u with cptse := dp.isTse })
      before packet (Network.withOptions dp n) := by
  refine ⟨?_, ?_, h.size, h.data, h.frames, h.sent⟩
  · exact h.context.apply fun tp => contextOf (loadedSums dp tp)
  · rw [← h.unsaved]
    rfl

/-- The options of a descriptor within a packet that is cut into segments. -/
theorem Holding.withOptions (h : Holding c u before packet n) (dp : TxDesc)
    (hc : loadedSums dp c = c)
    (hu : loadedVlan (taggingOf n).enabled (taggingOf n).type dp { u with cptse := dp.isTse } = u) :
    Holding c u before packet (Network.withOptions dp n) := by
  refine ⟨?_, ?_, h.size, h.data, h.header, h.frames, h.sent⟩
  · have hsums : contextOf (loadedSums dp n.dev.tx) = contextOf (loadedSums dp c) :=
      h.context.apply fun tp => contextOf (loadedSums dp tp)
    exact hsums.trans (congrArg contextOf hc)
  · refine Eq.trans ?_ hu
    rw [← h.unsaved]
    rfl

/-- The bytes of a packet that is sent as it is are collected in `tx.data`. -/
theorem Collecting.takeBytes (h : Collecting c u before packet n) (hwhole : u.cptse = false)
    (fuel : ℕ) (addr : UInt64) {splitSize : UInt32}
    (hroom : packet.length + splitSize.toNat < 2 ^ 16) :
    ∃ n', Network.takeBytes fuel addr splitSize n = .ok n' ∧
      Collecting c u before (packet ++ n.ram.read addr splitSize.toNat) n' := by
  have hread : Network.readData addr splitSize n =
      .ok (storeBytes (n.ram.read addr splitSize.toNat) n) := by
    unfold Network.readData txDataSize
    rw [transferred_of_lt (by omega), h.size, if_pos (by omega)]
    rfl
  have htake : Network.takeBytes fuel addr splitSize n =
      (Network.readData addr splitSize n).map fun n =>
        n.setSize (n.dev.tx.size + splitSize.toUInt16) := by
    unfold Network.takeBytes TxUnsaved.segmenting
    rw [h.unsaved, hwhole, Bool.and_false, if_neg Bool.false_ne_true, Bool.and_false,
      if_neg Bool.false_ne_true]
  rw [htake, hread]
  refine ⟨_, rfl, h.context, h.unsaved, ?_, ?_, h.frames, h.sent⟩
  · change (n.dev.tx.size + splitSize.toUInt16).toNat = _
    rw [UInt16.toNat_add, UInt32.toNat_toUInt16,
      Nat.mod_eq_of_lt (by omega : splitSize.toNat < 2 ^ 16), h.size, Nat.mod_eq_of_lt hroom,
      List.length_append, AddressSpace.read_length]
  · change Region.load (Region.storeAt n.dev.tx.data n.dev.tx.size.toNat _) _ = _
    rw [List.length_append, h.size, Region.load_storeAt_append, h.data]

/-- A packet that is cut into segments grows by the bytes of a descriptor. -/
theorem Holding.takeBytes (h : Holding c u before packet n) (hcuts : CutsSegments c u) {fuel : ℕ}
    (hfuel : 2 ^ 16 ≤ fuel) (addr : UInt64) {splitSize : UInt32}
    (hsplit : splitSize.toNat < 2 ^ 16) :
    ∃ n', Network.takeBytes fuel addr splitSize n = .ok n' ∧
      Holding c u before (packet ++ n.ram.read addr splitSize.toNat) n' := by
  have hseg : n.txUnsaved.segmenting = true := by
    rw [h.unsaved]
    exact hcuts.segmenting
  unfold Network.takeBytes
  rw [if_pos hseg]
  exact h.segmentLoop hcuts hsplit (hsplit.trans_le hfuel) addr

/-- Behind a packet nothing is held. -/
theorem collecting_clearPacket {sent : List (List UInt8)} (hcontext : SameContext c n.dev.tx)
    (hunsaved : n.txUnsaved = u) (hsent : n.sent = sent) :
    Collecting { c with sumNeeded := 0 } { u with vlanNeeded := false, cptse := false } sent []
      (clearPacket n) := by
  refine ⟨?_, ?_, rfl, rfl, rfl, hsent⟩
  · exact hcontext.apply fun tp => contextOf { tp with sumNeeded := 0 }
  · rw [← hunsaved]
    rfl

/-- Sending a packet leaves the context. -/
theorem sameContext_xmitSeg (h : SameContext c n.dev.tx) : SameContext c (xmitSeg n).dev.tx := by
  rw [xmitSeg_tx]
  exact h

/-- A packet that is sent as it is becomes one more frame at its end, and nothing is held. -/
theorem Collecting.endPacket (h : Collecting c u before packet n) (hwhole : u.cptse = false)
    (hvlan : u.vlanNeeded = true → 12 ≤ packet.length) :
    Collecting { c with sumNeeded := 0 } { u with vlanNeeded := false, cptse := false }
      (before ++ [frameOf c u 0 packet]) [] (Network.endPacket n) := by
  have hplain : u.segmenting = false := by rw [TxUnsaved.segmenting, hwhole, Bool.and_false]
  have hinside : FieldsInside n.dev.tx n.txUnsaved n.dev.tx.size.toNat := by
    rw [h.unsaved, h.size]
    refine ⟨?_, ?_, ?_, hvlan⟩ <;> exact fun hu =>
      absurd hu (by rw [hplain]; exact Bool.false_ne_true)
  have hcomplete : headerMissing n = false := by
    rw [headerMissing, h.unsaved, hplain, Bool.false_and]
  have hsent : (xmitSeg n).sent = before ++ [frameOf c u 0 packet] := by
    change n.sent ++ [(outPacket n).1] = _
    rw [outPacket_eq_frameOf hinside, h.sent, h.size, h.data, h.frames, h.unsaved,
      frameOf_of_sameContext h.context]
  unfold Network.endPacket
  rw [hcomplete, if_neg Bool.false_ne_true]
  exact collecting_clearPacket (sameContext_xmitSeg h.context) h.unsaved hsent

/-- The header of a packet is missing if the packet is shorter. -/
theorem Holding.headerMissing_iff (h : Holding c u before packet n) (hcuts : CutsSegments c u) :
    headerMissing n = true ↔ packet.length < headerLength c := by
  have hhdr : n.dev.tx.hdrLen = c.hdrLen := h.context.apply E1000Tx.hdrLen
  have hheader : c.hdrLen.toUInt16.toNat = headerLength c := UInt8.toNat_toUInt16 _
  unfold headerMissing
  rw [h.unsaved, hcuts.segmenting, Bool.true_and, decide_eq_true_iff, hhdr, UInt16.lt_iff_toNat_lt,
    h.size, hheader]
  rcases Nat.lt_or_ge packet.length (headerLength c) with hshort | hlong
  · rw [openSegment, buffer_of_length_lt hshort]
  · rw [openSegment, buffer_length hcuts.payload]
    omega

/-- A packet that is cut into segments has them all sent at its end, and nothing is held. -/
theorem Holding.endPacket (h : Holding c u before packet n) (hcuts : CutsSegments c u) :
    Collecting { c with sumNeeded := 0 } { u with vlanNeeded := false, cptse := false }
      (before ++ Sender.segments ⟨c, u, packet, before⟩) [] (Network.endPacket n) := by
  unfold Network.endPacket Sender.segments
  dsimp only
  by_cases hshort : packet.length < headerLength c
  · have hsent : n.sent = before ++ [] := by
      rw [h.sent, completeFrames, full_of_length_le hshort.le]
      rfl
    rw [if_pos ((h.headerMissing_iff hcuts).mpr hshort), if_pos hshort]
    exact collecting_clearPacket h.context h.unsaved hsent
  · have hinside : FieldsInside n.dev.tx n.txUnsaved n.dev.tx.size.toNat := by
      rw [h.unsaved, h.size, openSegment, buffer_length hcuts.payload]
      exact hcuts.inside.of_sameContext h.context (by omega)
    have hsent : (xmitSeg n).sent = before ++
        (List.range (full (headerLength c) (payloadLength c) packet + 1)).map
        (segmentFrame c u packet) := by
      change n.sent ++ [(outPacket n).1] = _
      rw [outPacket_eq_frameOf hinside, h.sent, h.size, h.data, h.frames, h.unsaved,
        frameOf_of_sameContext h.context, List.append_assoc, List.range_succ, List.map_append]
      rfl
    rw [if_neg (mt (h.headerMissing_iff hcuts).mp hshort), if_neg hshort]
    exact collecting_clearPacket (sameContext_xmitSeg h.context) h.unsaved hsent

/-- A data descriptor that is accepted fits a segmented packet or a plain one. -/
theorem Sender.Accepts.data {tags : Tagging} {dp : TxDesc} {bytes : List UInt8}
    (h : s.Accepts tags dp bytes) (hdata : dp.isContext = false) :
    if (s.loadOptions tags dp).options.segmenting then Sender.FitsSegments s (s.loadOptions tags dp)
    else Sender.FitsPlain s (s.loadOptions tags dp) dp bytes := by
  unfold Sender.Accepts at h
  rwa [hdata, if_neg Bool.false_ne_true] at h

/-- The device follows the sender when it takes over the options of a data descriptor. -/
theorem Simulates.loadOptions (h : Simulates s n) {dp : TxDesc} {bytes : List UInt8}
    (hdata : dp.isContext = false) (haccepts : s.Accepts (taggingOf n) dp bytes) :
    Simulates (s.loadOptions (taggingOf n) dp) (withOptions dp n) := by
  by_cases hpacket : s.packet = []
  · have hidle := (simulates_of_packet_nil hpacket).mp h
    exact (simulates_of_packet_nil (s := s.loadOptions (taggingOf n) dp) hpacket).mpr
      (hidle.withOptions dp)
  have hfits := haccepts.data hdata
  unfold Simulates at h ⊢
  split at hfits
  · rename_i hafter
    obtain ⟨hc, hu⟩ := hfits.same hpacket
    rw [hu] at hafter
    rw [if_pos hafter] at h
    rw [hc, hu, if_pos hafter]
    exact h.withOptions dp hc hu
  · rename_i hafter
    rw [hfits.same hpacket, if_neg Bool.false_ne_true] at h
    rw [if_neg hafter]
    exact h.withOptions dp

/-- The device follows the sender through the bytes of a data descriptor. -/
theorem Simulates.takeBytes (h : Simulates s n) {fuel : ℕ} (hfuel : 2 ^ 16 ≤ fuel) (addr : UInt64)
    {splitSize : UInt32} (hsplit : splitSize.toNat < 2 ^ 16)
    (hcuts : s.options.segmenting = true → CutsSegments s.context s.options)
    (hplain : s.options.segmenting = false →
      s.options.cptse = false ∧ s.packet.length + splitSize.toNat < 2 ^ 16) :
    ∃ n', Network.takeBytes fuel addr splitSize n = .ok n' ∧
      Simulates (s.append (n.ram.read addr splitSize.toNat)) n' := by
  unfold Simulates at h ⊢
  cases hseg : s.options.segmenting with
  | true =>
    rw [if_pos hseg] at h
    simp only [Sender.append, hseg, if_true]
    exact h.takeBytes (hcuts hseg) hfuel addr hsplit
  | false =>
    rw [hseg, if_neg Bool.false_ne_true] at h
    simp only [Sender.append, hseg, Bool.false_eq_true, if_false]
    exact h.takeBytes (hplain hseg).1 fuel addr (hplain hseg).2

/-- The device follows the sender through the end of a packet. -/
theorem Simulates.endPacket (h : Simulates s n)
    (hcuts : s.options.segmenting = true → CutsSegments s.context s.options)
    (hplain : s.options.segmenting = false →
      s.options.cptse = false ∧ (s.options.vlanNeeded = true → 12 ≤ s.packet.length)) :
    Simulates s.finish (Network.endPacket n) := by
  refine (simulates_of_packet_nil (s := s.finish) rfl).mpr ?_
  unfold Simulates at h
  unfold Sender.finish Sender.frames
  cases hseg : s.options.segmenting with
  | true =>
    rw [if_pos hseg] at h
    exact h.endPacket (hcuts hseg)
  | false =>
    rw [hseg, if_neg Bool.false_ne_true] at h
    exact h.endPacket (hplain hseg).1 (hplain hseg).2

/-- A descriptor from a driver that keeps to the rules is processed, and the device follows the
sender. -/
theorem Simulates.processTxDesc (h : Simulates s n) {fuel : ℕ} (hfuel : 2 ^ 16 ≤ fuel) (dp : TxDesc)
    (haccepts : s.Accepts (taggingOf n) dp (n.ram.read dp.bufferAddr dp.splitSize.toNat)) :
    ∃ n', Network.processTxDesc fuel dp n = .ok n' ∧
      Simulates (s.take (taggingOf n) dp (n.ram.read dp.bufferAddr dp.splitSize.toNat)) n' := by
  unfold Network.processTxDesc Sender.take
  cases hcontext : dp.isContext with
  | true =>
    unfold Sender.Accepts at haccepts
    rw [if_pos hcontext] at haccepts
    exact ⟨_, rfl, h.loadContext haccepts dp⟩
  | false =>
    have hoptions := h.loadOptions hcontext haccepts
    have hfits := haccepts.data hcontext
    have hcuts (hseg : (s.loadOptions (taggingOf n) dp).options.segmenting = true) :
        CutsSegments (s.loadOptions (taggingOf n) dp).context
          (s.loadOptions (taggingOf n) dp).options := by
      rw [if_pos hseg] at hfits
      exact hfits.cuts
    have hplain (hseg : (s.loadOptions (taggingOf n) dp).options.segmenting = false) :
        Sender.FitsPlain s (s.loadOptions (taggingOf n) dp) dp
          (n.ram.read dp.bufferAddr dp.splitSize.toNat) := by
      rwa [hseg, if_neg Bool.false_ne_true] at hfits
    obtain ⟨taken, htaken, hsim⟩ :=
      hoptions.takeBytes hfuel dp.bufferAddr dp.splitSize_lt hcuts fun hseg => by
      have hroom := (hplain hseg).room
      rw [List.length_append, AddressSpace.read_length] at hroom
      exact ⟨(hplain hseg).whole, hroom⟩
    have hram : (withOptions dp n).ram = n.ram := rfl
    rw [hram] at hsim
    simp only [Bool.false_eq_true, if_false]
    change ∃ n', (Network.takeBytes fuel dp.bufferAddr dp.splitSize (withOptions dp n)).map _ = _ ∧
      _
    rw [htaken]
    refine ⟨_, rfl, ?_⟩
    dsimp only
    split
    · rename_i heop
      exact hsim.endPacket hcuts fun hseg => ⟨(hplain hseg).whole, (hplain hseg).vlan heop⟩
    · exact hsim

end Steps

end VirtualFirmware.Network
