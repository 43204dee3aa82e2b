import VirtualFirmware.Network.ReceiveDelivery
import VirtualFirmware.Network.SegmentHeaders
import VirtualFirmware.Network.TransmitRefinement

/-!
# From one machine to another

A packet is queued with legacy descriptors, the last of which may ask for a VLAN tag. The frames
that one device sends arrive at another one in order. The bytes of a packet, gathered from the
buffers of the first machine, are then in a buffer of the second, and the tag is in the descriptor.
-/

namespace VirtualFirmware.Network

open Library Device

/-- A legacy descriptor. -/
def TxDesc.isLegacy (dp : TxDesc) : Bool := !dp.isContext && !dp.isData

/-- The descriptors of a packet, with the bytes they point to: legacy ones, of which the last one
ends the packet. -/
structure Gather where
  front : List (TxDesc × List UInt8)
  last : TxDesc × List UInt8
  frontLegacy : ∀ entry ∈ front, entry.1.isLegacy = true ∧ entry.1.isEop = false
  lastLegacy : last.1.isLegacy = true ∧ last.1.isEop = true

namespace Gather

/-- The descriptors as they are queued. -/
def queue (g : Gather) : List (TxDesc × List UInt8) := g.front ++ [g.last]

/-- The bytes of the packet. -/
def bytes (g : Gather) : List UInt8 := g.queue.flatMap Prod.snd

/-- The packet is sent with a VLAN tag. -/
def tagged (tags : Tagging) (g : Gather) : Bool := tags.enabled && isVlanTxd g.last.1.lower

/-- The VLAN tag that the last descriptor holds. -/
def tag (g : Gather) : UInt16 := (g.last.1.upper >>> 16).toUInt16

/-- The frame of the packet. -/
def frame (tags : Tagging) (g : Gather) : List UInt8 :=
  if g.tagged tags then
    g.bytes.take 12 ++ (beBytes 2 tags.type.toNat ++ beBytes 2 g.tag.toNat) ++ g.bytes.drop 12
  else g.bytes

/-- What is to arrive of the packet. -/
def arrives (tags : Tagging) (g : Gather) : RxPacket :=
  if g.tagged tags then ⟨g.bytes ++ List.replicate (minBufSize - (g.bytes.length + 4)) 0, g.tag, 8⟩
  else ⟨g.bytes ++ List.replicate (minBufSize - g.bytes.length) 0, 0, 0⟩

end Gather

/-- The sender within a packet that is sent as it is, or between packets. -/
structure Sender.Gathering (s : Sender) (bytes : List UInt8) (sent : List (List UInt8)) : Prop where
  packet : s.packet = bytes
  sums : s.context.sumNeeded = 0
  vlan : s.options.vlanNeeded = false
  whole : s.options.cptse = false
  sent : s.sent = sent

/-- The rules are kept in a queue if they are in both parts. -/
theorem Sender.acceptsAll_append (tags : Tagging) (s : Sender)
    (first second : List (TxDesc × List UInt8)) :
    s.AcceptsAll tags (first ++ second) ↔ s.AcceptsAll tags first ∧
      (s.run tags first).AcceptsAll tags second := by
  induction first generalizing s with
  | nil => exact ⟨fun h => ⟨trivial, h⟩, fun h => h.2⟩
  | cons entry rest ih => exact (and_congr_right fun _ => ih _).trans and_assoc.symm

/-- One part of a queue is taken after the other. -/
theorem Sender.run_append (tags : Tagging) (s : Sender)
    (first second : List (TxDesc × List UInt8)) :
    s.run tags (first ++ second) = (s.run tags first).run tags second :=
  List.foldl_append

/-- A packet without checksums is sent as it is, but for a VLAN tag. -/
theorem frameOf_plain {tp : E1000Tx} {u : TxUnsaved} (hsums : tp.sumNeeded = 0)
    (hseg : u.segmenting = false) {bytes : List UInt8}
    (hlong : u.vlanNeeded = true → 12 ≤ bytes.length)
    (hheader : u.vlanNeeded = true → u.vlanHeader.length = 4) :
    frameOf tp u 0 bytes = insertTag u bytes := by
  have hcompleted : insertSums (holdingBytes tp 0 bytes) (Region.ofBytes bytes) =
      Region.ofBytes bytes := by
    simp only [insertSums, holdingBytes, hsums, UInt8.zero_and, ne_eq, not_true_eq_false, if_false]
  unfold frameOf
  dsimp only
  rw [hseg, if_neg Bool.false_ne_true]
  change (outgoing u (insertSums (holdingBytes tp 0 bytes) (Region.ofBytes bytes)) bytes.length).1 =
    _
  rw [hcompleted, outgoing_eq_insertTag hlong hheader, Region.load_ofBytes]

/-- A legacy descriptor is neither a context nor a data descriptor and asks for no segmentation. -/
theorem TxDesc.isLegacy_eq {dp : TxDesc} (h : dp.isLegacy = true) :
    dp.isContext = false ∧ dp.isData = false ∧ dp.isTse = false := by
  rw [TxDesc.isLegacy, Bool.and_eq_true, Bool.not_eq_true', Bool.not_eq_true'] at h
  exact ⟨h.1, h.2, by rw [TxDesc.isTse, h.2, Bool.false_and]⟩

namespace Sender.Gathering

variable {s : Sender} {bytes : List UInt8} {sent : List (List UInt8)} (h : s.Gathering bytes sent)
  (tags : Tagging)

include h

/-- A legacy descriptor asks for no checksums and no segments. -/
theorem loadOptions {dp : TxDesc} (hlegacy : dp.isLegacy = true) :
    (s.loadOptions tags dp).context.sumNeeded = 0 ∧ (s.loadOptions tags dp).options.cptse = false ∧
      (s.loadOptions tags dp).options.segmenting = false := by
  obtain ⟨-, hdata, htse⟩ := TxDesc.isLegacy_eq hlegacy
  have hwhole : (s.loadOptions tags dp).options.cptse = false := by
    change (loadedVlan tags.enabled tags.type dp { s.options with cptse := dp.isTse }).cptse = false
    unfold loadedVlan
    split <;> exact htse
  refine ⟨?_, hwhole, ?_⟩
  · change (if dp.isData then _ else s.context.sumNeeded) = 0
    rw [hdata, if_neg Bool.false_ne_true, h.sums]
  · rw [TxUnsaved.segmenting, hwhole, Bool.and_false]

/-- A legacy descriptor is accepted if its bytes fit and leave room for a tag. -/
theorem accepts {dp : TxDesc} (hlegacy : dp.isLegacy = true) {more : List UInt8}
    (hroom : (bytes ++ more).length < 2 ^ 16)
    (hvlan : dp.isEop = true → (s.loadOptions tags dp).options.vlanNeeded = true →
      12 ≤ (bytes ++ more).length) :
    s.Accepts tags dp more := by
  obtain ⟨-, hwhole, hseg⟩ := h.loadOptions tags hlegacy
  unfold Sender.Accepts
  rw [(TxDesc.isLegacy_eq hlegacy).1, if_neg Bool.false_ne_true]
  dsimp only
  rw [hseg, if_neg Bool.false_ne_true]
  refine ⟨hwhole, fun _ => ?_, by rw [h.packet]; exact hroom, fun heop hneeded => by
    rw [h.packet]; exact hvlan heop hneeded⟩
  rw [TxUnsaved.segmenting, h.whole, Bool.and_false]

/-- A legacy descriptor in a packet adds its bytes. -/
theorem take {entry : TxDesc × List UInt8}
    (hentry : entry.1.isLegacy = true ∧ entry.1.isEop = false) :
    (s.take tags entry.1 entry.2).Gathering (bytes ++ entry.2) sent := by
  obtain ⟨hlegacy, heop⟩ := hentry
  obtain ⟨hsums, hwhole, -⟩ := h.loadOptions tags hlegacy
  have hvlan : (s.loadOptions tags entry.1).options.vlanNeeded = false := by
    have htse := (TxDesc.isLegacy_eq hlegacy).2.2
    change (loadedVlan tags.enabled tags.type entry.1
      { s.options with cptse := entry.1.isTse }).vlanNeeded = false
    unfold loadedVlan
    rw [htse, heop, Bool.or_self, Bool.and_false, if_neg Bool.false_ne_true]
    exact h.vlan
  have htake : s.take tags entry.1 entry.2 = (s.loadOptions tags entry.1).append entry.2 := by
    unfold Sender.take
    rw [(TxDesc.isLegacy_eq hlegacy).1, if_neg Bool.false_ne_true]
    dsimp only
    rw [heop, if_neg Bool.false_ne_true]
  rw [htake]
  exact ⟨congrArg (· ++ entry.2) h.packet, hsums, hvlan, hwhole, h.sent⟩

/-- The descriptors of a packet before the last one add their bytes. -/
theorem run {front : List (TxDesc × List UInt8)}
    (hfront : ∀ entry ∈ front, entry.1.isLegacy = true ∧ entry.1.isEop = false)
    (hroom : (bytes ++ front.flatMap Prod.snd).length < 2 ^ 16) :
    s.AcceptsAll tags front ∧
      (s.run tags front).Gathering (bytes ++ front.flatMap Prod.snd) sent := by
  induction front generalizing s bytes with
  | nil => exact ⟨trivial, by rw [List.flatMap_nil, List.append_nil]; exact h⟩
  | cons entry rest ih =>
    have hentry := hfront entry List.mem_cons_self
    rw [List.flatMap_cons, ← List.append_assoc] at hroom ⊢
    obtain ⟨haccepts, hrun⟩ :=
      ih (h.take tags hentry) (fun other hother => hfront other (List.mem_cons_of_mem _ hother))
      hroom
    refine ⟨⟨h.accepts tags hentry.1 ?_ ?_, haccepts⟩, hrun⟩
    · rw [List.length_append] at hroom
      omega
    · rw [hentry.2]
      exact fun heop => absurd heop Bool.false_ne_true

/-- The last descriptor of a packet has it sent. -/
theorem finish {last : TxDesc × List UInt8} (hlast : last.1.isLegacy = true ∧ last.1.isEop = true)
    (hlong : 12 ≤ (bytes ++ last.2).length) (hroom : (bytes ++ last.2).length < 2 ^ 16) :
    s.Accepts tags last.1 last.2 ∧
      (s.take tags last.1 last.2).Gathering []
        (sent ++ [if tags.enabled && isVlanTxd last.1.lower then
        (bytes ++ last.2).take 12 ++
          (beBytes 2 tags.type.toNat ++ beBytes 2 (last.1.upper >>> 16).toNat) ++
          (bytes ++ last.2).drop 12
        else bytes ++ last.2]) := by
  obtain ⟨hlegacy, heop⟩ := hlast
  refine ⟨h.accepts tags hlegacy hroom fun _ _ => hlong, ?_⟩
  obtain ⟨hsums, hwhole, hseg⟩ := h.loadOptions tags hlegacy
  have htake : s.take tags last.1 last.2 = ((s.loadOptions tags last.1).append last.2).finish := by
    unfold Sender.take
    rw [(TxDesc.isLegacy_eq hlegacy).1, if_neg Bool.false_ne_true]
    dsimp only
    rw [heop, if_pos rfl]
  have hoptions : (s.loadOptions tags last.1).options =
      if tags.enabled && isVlanTxd last.1.lower then
        { s.options with
          cptse := false
          vlanNeeded := true
          vlanHeader := beBytes 2 tags.type.toNat ++ beBytes 2 (last.1.upper >>> 16).toNat }
      else { s.options with cptse := false } := by
    change loadedVlan tags.enabled tags.type last.1 { s.options with cptse := last.1.isTse } = _
    unfold loadedVlan
    rw [(TxDesc.isLegacy_eq hlegacy).2.2, heop, Bool.or_true, Bool.and_true]
  have hpacket : ((s.loadOptions tags last.1).append last.2).packet = bytes ++ last.2 :=
    congrArg (· ++ last.2) h.packet
  have hframes : ((s.loadOptions tags last.1).append last.2).frames =
      [insertTag (s.loadOptions tags last.1).options (bytes ++ last.2)] := by
    unfold Sender.frames
    change (if (s.loadOptions tags last.1).options.segmenting then _ else _) = _
    rw [hseg, if_neg Bool.false_ne_true, hpacket]
    refine congrArg (fun frame => [frame]) (frameOf_plain hsums hseg (fun _ => hlong) fun hneeded =>
      ?_)
    rw [hoptions] at hneeded ⊢
    split
    · rw [List.length_append, beBytes_length, beBytes_length]
    · rename_i htagged
      rw [if_neg htagged] at hneeded
      exact absurd (h.vlan.symm.trans hneeded) Bool.false_ne_true
  rw [htake]
  refine ⟨rfl, rfl, rfl, rfl, ?_⟩
  change s.sent ++ ((s.loadOptions tags last.1).append last.2).frames = _
  rw [h.sent, hframes, insertTag, hoptions]
  by_cases htagged : (tags.enabled && isVlanTxd last.1.lower) = true
  · rw [if_pos htagged, if_pos htagged]
    rfl
  · rw [if_neg htagged, if_neg htagged, if_neg (by rw [h.vlan]; exact Bool.false_ne_true)]

end Sender.Gathering

/-- A packet is long enough for a VLAN tag and fits `tx.data`. -/
def Gather.Fits (g : Gather) : Prop := 12 ≤ g.bytes.length ∧ g.bytes.length < 2 ^ 16

section Queues

variable {s : Sender} {sent : List (List UInt8)} (tags : Tagging)

/-- A packet that is queued is sent. -/
theorem Gather.run (h : s.Gathering [] sent) {g : Gather} (hfits : g.Fits) :
    s.AcceptsAll tags g.queue ∧ (s.run tags g.queue).Gathering [] (sent ++ [g.frame tags]) := by
  have hbytes : g.front.flatMap Prod.snd ++ g.last.2 = g.bytes := by
    rw [Gather.bytes, Gather.queue, List.flatMap_append, List.flatMap_singleton]
  obtain ⟨hlong, hroom⟩ := hfits
  rw [← hbytes] at hlong hroom
  have htag : (g.last.1.upper >>> 16).toNat = g.tag.toNat := by
    have hupper := g.last.1.upper.toNat_lt
    rw [Gather.tag, UInt32.toNat_toUInt16, UInt32.toNat_shiftRight]
    simp only [UInt32.reduceToNat, Nat.reduceMod, Nat.shiftRight_eq_div_pow]
    omega
  obtain ⟨hfront, hgathered⟩ := h.run tags g.frontLegacy (by
    rw [List.length_append] at hroom
    rw [List.nil_append]
    omega)
  rw [List.nil_append] at hgathered
  obtain ⟨hlast, hsent⟩ := hgathered.finish tags g.lastLegacy hlong hroom
  rw [hbytes, htag] at hsent
  rw [Gather.queue, Sender.acceptsAll_append, Sender.run_append]
  exact ⟨⟨hfront, hlast, trivial⟩, hsent⟩

/-- Packets that are queued are sent in order. -/
theorem Gather.runAll {packets : List Gather} (h : s.Gathering [] sent)
    (hfits : ∀ g ∈ packets, g.Fits) :
    s.AcceptsAll tags (packets.flatMap Gather.queue) ∧
      (s.run tags (packets.flatMap Gather.queue)).Gathering []
        (sent ++ packets.map (Gather.frame tags)) := by
  induction packets generalizing s sent with
  | nil => exact ⟨trivial, by rw [List.map_nil, List.append_nil]; exact h⟩
  | cons g rest ih =>
    obtain ⟨hfirst, hgathered⟩ := Gather.run tags h (hfits g List.mem_cons_self)
    obtain ⟨hrest, hend⟩ :=
      ih hgathered fun other hother => hfits other (List.mem_cons_of_mem _ hother)
    rw [List.flatMap_cons, Sender.acceptsAll_append, Sender.run_append, List.map_cons,
      List.append_cons]
    exact ⟨⟨hfirst, hrest⟩, hend⟩

end Queues

/-- A half word in the middle of some bytes is read back. -/
theorem be16_ofBytes_append {left : List UInt8} {offset : ℕ} (hoffset : left.length = offset)
    (right : List UInt8) (value : UInt16) :
    be16 (Region.ofBytes (left ++ beBytes 2 value.toNat ++ right)) offset = value := by
  have hload := Region.loadAt_ofBytes_append left (beBytes 2 value.toNat) right
  rw [beBytes_length, hoffset] at hload
  rw [be16, hload, beNat_beBytes_of_lt value.toNat_lt, UInt16.ofNat_toNat]

/-- Padding is not seen. -/
theorem ofBytes_padded (buf : List UInt8) : Region.ofBytes (padded buf) = Region.ofBytes buf :=
  Region.ofBytes_append_zeros _ _

section Tagged

variable {tags : Tagging} {g : Gather} (hfits : g.Fits) (htagged : g.tagged tags = true)

include hfits

/-- The addresses are in front of the tag. -/
theorem Gather.length_addresses : (g.bytes.take 12).length = 12 := by
  rw [List.length_take, Nat.min_eq_left hfits.1]

include htagged

/-- The frame has the type and the tag at bytes 12 and 14. -/
theorem Gather.be16_frame :
    be16 (Region.ofBytes (g.frame tags)) 12 = tags.type ∧
      be16 (Region.ofBytes (g.frame tags)) 14 = g.tag := by
  have haddresses := Gather.length_addresses hfits
  rw [Gather.frame, if_pos htagged]
  constructor
  · rw [← List.append_assoc, List.append_assoc]
    exact be16_ofBytes_append haddresses _ _
  · rw [← List.append_assoc]
    exact be16_ofBytes_append (by rw [List.length_append, haddresses, beBytes_length]) _ _

/-- The padded frame is the addresses, the tag, and the rest with its padding. -/
theorem Gather.padded_frame :
    padded (g.frame tags) =
      g.bytes.take 12 ++ (beBytes 2 tags.type.toNat ++ beBytes 2 g.tag.toNat) ++
      (g.bytes.drop 12 ++ List.replicate (minBufSize - (g.bytes.length + 4)) 0) := by
  have hlength : (g.frame tags).length = g.bytes.length + 4 := by
    have hlong := hfits.1
    rw [Gather.frame, if_pos htagged]
    simp only [List.length_append, Gather.length_addresses hfits, beBytes_length, List.length_drop]
    omega
  rw [padded, hlength, Gather.frame, if_pos htagged]
  exact List.append_assoc _ _ _

/-- Without the tag the bytes of the packet are left. -/
theorem Gather.strip_frame :
    (padded (g.frame tags)).take 12 ++ (padded (g.frame tags)).drop 16 =
      g.bytes ++ List.replicate (minBufSize - (g.bytes.length + 4)) 0 := by
  have haddresses := Gather.length_addresses hfits
  have hfront : (padded (g.frame tags)).take 12 = g.bytes.take 12 := by
    rw [Gather.padded_frame hfits htagged, List.append_assoc]
    exact List.take_left' haddresses
  have hback : (padded (g.frame tags)).drop 16 =
      g.bytes.drop 12 ++ List.replicate (minBufSize - (g.bytes.length + 4)) 0 := by
    rw [Gather.padded_frame hfits htagged]
    exact List.drop_left'
      (by rw [List.length_append, List.length_append, haddresses, beBytes_length, beBytes_length])
  rw [hfront, hback, ← List.append_assoc, List.take_append_drop]

end Tagged

/-- A VLAN tag that was inserted is stripped. -/
theorem arriving_frame {b : Nic} {tags : Tagging} {g : Gather} (hfits : g.Fits)
    (henabled : vlanEnabled b.dev = true) (htype : vlanType b.dev = tags.type)
    (huntagged : g.tagged tags = false → be16 (Region.ofBytes g.bytes) 12 ≠ tags.type) :
    arriving b (g.frame tags) = g.arrives tags := by
  unfold arriving rxPacket isVlanPacket Gather.arrives
  rw [henabled, htype, Bool.true_and, ofBytes_padded]
  cases htagged : g.tagged tags with
  | true =>
    obtain ⟨hthere, htag⟩ := Gather.be16_frame hfits htagged
    rw [decide_eq_true hthere, if_pos rfl, if_pos rfl, htag, Gather.strip_frame hfits htagged]
  | false =>
    have hframe : g.frame tags = g.bytes := by rw [Gather.frame, htagged, if_neg Bool.false_ne_true]
    rw [hframe, decide_eq_false (huntagged htagged), if_neg Bool.false_ne_true,
      if_neg Bool.false_ne_true]
    rfl

/-- The device is between packets, and no option is left that the next packet does not set. -/
structure TxIdle (n : Nic) : Prop where
  size : n.dev.tx.size = 0
  frames : n.dev.tx.tsoFrames = 0
  sums : n.dev.tx.sumNeeded = 0
  vlan : n.txUnsaved.vlanNeeded = false
  whole : n.txUnsaved.cptse = false

/-- The sender that an idle device follows. -/
def senderOf (n : Nic) : Sender := ⟨n.dev.tx, n.txUnsaved, [], n.sent⟩

/-- An idle device follows its sender, which is within no packet. -/
theorem TxIdle.senderOf {n : Nic} (h : TxIdle n) :
    Simulates (Network.senderOf n) n ∧ (Network.senderOf n).Gathering [] n.sent := by
  refine ⟨(simulates_of_packet_nil rfl).mpr ⟨rfl, rfl, ?_, rfl, h.frames, rfl⟩, rfl, h.sums, h.vlan,
    h.whole, rfl⟩
  rw [h.size]
  rfl

/-- A device that follows a sender within no packet is idle. -/
theorem Sender.Gathering.idle {s : Sender} {sent : List (List UInt8)} (h : s.Gathering [] sent)
    {n : Nic} (hsim : Simulates s n) : TxIdle n ∧ n.sent = sent := by
  have hcollecting := (simulates_of_packet_nil h.packet).mp hsim
  have hsums := congrArg E1000Tx.sumNeeded hcollecting.context
  refine ⟨⟨?_, hcollecting.frames, hsums.trans h.sums, ?_, ?_⟩, hcollecting.sent.trans h.sent⟩
  · exact UInt16.toNat_inj.mp hcollecting.size
  · rw [hcollecting.unsaved, h.vlan]
  · rw [hcollecting.unsaved, h.whole]

/-- Packets that are queued with legacy descriptors are sent. -/
theorem setTctl_sends {a : Nic} {tail : UInt32} {fuel : ℕ} (hready : RingReady a)
    (htail : tail.toNat < txSlots a) (hfuel : 2 ^ 16 ≤ fuel) (hidle : TxIdle a)
    {packets : List Gather}
    (hqueued : queued a (pendingSlots a tail) = packets.flatMap Gather.queue)
    (hfits : ∀ g ∈ packets, g.Fits)
    (hapart : BuffersApart a (pendingSlots a tail)) :
    ∃ a', setTctl fuel MacReg.tdt.index tail a = .ok a' ∧ TxIdle a' ∧
      a'.sent = a.sent ++ packets.map (Gather.frame (taggingOf a)) := by
  obtain ⟨hsim, hgathering⟩ := hidle.senderOf
  obtain ⟨haccepts, hend⟩ := Gather.runAll (taggingOf a) hgathering hfits
  rw [← hqueued] at haccepts hend
  obtain ⟨a', htaken, hrun, -, -⟩ := setTctl_simulates hready htail hfuel hsim haccepts hapart
  obtain ⟨hidle', hsent⟩ := hend.idle hrun
  exact ⟨a', htaken, hidle', hsent⟩

/-- The driver of one machine queues packets and writes the tail; the frames arrive at another
machine, one after the other. As many packets as there are buffers are then in the buffers of the
second machine, in order, with their VLAN tags in the descriptors. -/
theorem wire_delivers (fuel : ℕ) (a b : Nic) (tail : UInt32) (packets : List Gather)
    (hfuel : 2 ^ 16 < fuel) (hready : RingReady a) (htail : tail.toNat < txSlots a)
    (hidle : TxIdle a)
    (hqueued : queued a (pendingSlots a tail) = packets.flatMap Gather.queue)
    (hfits : ∀ g ∈ packets, g.Fits)
    (hsource : BuffersApart a (pendingSlots a tail)) (hring : RxReady b) (hwrap : NoWrap b)
    (htarget : RxApart b)
    (haccepted : ∀ g ∈ packets, Accepted b (g.frame (taggingOf a)))
    (henabled : vlanEnabled b.dev = true)
    (htype : vlanType b.dev = vlanType a.dev)
    (huntagged : ∀ g ∈ packets, g.tagged (taggingOf a) = false → be16 (Region.ofBytes g.bytes) 12 ≠
      vlanType a.dev) :
    ∃ a' b', setTctl fuel MacReg.tdt.index tail a = .ok a' ∧ TxIdle a' ∧
      receiveAll fuel (a'.sent.drop a.sent.length) b =
        .ok (b', outcomes b (packets.map (Gather.frame (taggingOf a)))) ∧
      ∀ entry ∈ (usable b).zip packets, StoredIn b b' entry.1 (entry.2.arrives (taggingOf a)) := by
  obtain ⟨a', htaken, hidle', hsent⟩ :=
    setTctl_sends hready htail hfuel.le hidle hqueued hfits hsource
  have hframes : ∀ buf ∈ packets.map (Gather.frame (taggingOf a)), Accepted b buf := by
    intro buf hbuf
    obtain ⟨g, hg, rfl⟩ := List.mem_map.mp hbuf
    exact haccepted g hg
  obtain ⟨b', hreceived, hdelivered⟩ :=
    receiveAll_delivered hring hwrap htarget hframes (hring.slots.trans_lt hfuel)
  refine ⟨a', b', htaken, hidle', ?_, fun entry hentry => ?_⟩
  · rw [hsent, List.drop_left]
    exact hreceived
  · have hmember : entry.2 ∈ packets := (List.of_mem_zip hentry).2
    have hstored := hdelivered.stored (entry.1, entry.2.frame (taggingOf a)) (by
      rw [List.zip_map_right]
      exact List.mem_map_of_mem (f := Prod.map id (Gather.frame (taggingOf a))) hentry)
    rw [arriving_frame (hfits _ hmember) henabled htype (huntagged _ hmember)] at hstored
    exact hstored

/-- A machine with VLANs enabled. -/
def withVlans (n : Nic) : Nic := (n.setReg .ctrl 0x40000000).setReg .vet 0x8100

/-- A packet of twenty bytes in two buffers, which asks for the VLAN tag 5. -/
def gatheredPacket : Gather where
  front := [(⟨0x2000, 0xe, 0⟩, (List.range 14).map UInt8.ofNat)]
  last := (⟨0x3000, 0x41000006, 0x50000⟩, [1, 2, 3, 4, 5, 6])
  frontLegacy := by decide
  lastLegacy := by decide

/-- A ring of eight slots at `0x1000` in which the packet is queued. -/
def queuedPacket : Nic :=
  let ram := AddressSpace.write (fun _ => 0) 0x1000 (leBytes 8 0x2000 ++ leBytes 4 0xe ++
    leBytes 4 0 ++
    leBytes 8 0x3000 ++ leBytes 4 0x41000006 ++ leBytes 4 0x50000)
  let ram := (ram.write 0x2000 ((List.range 14).map UInt8.ofNat)).write 0x3000 [1, 2, 3, 4, 5, 6]
  let n : Nic := { (default : Nic) with ram := ram }
  withVlans (((n.setReg .tctl 2).setReg .tdbal 0x1000).setReg .tdlen 128)

/-- The packet arrives at a machine with buffers. -/
theorem wire_delivers_queuedPacket :
    ∃ a' b', setTctl (2 ^ 17) MacReg.tdt.index 2 queuedPacket = .ok a' ∧ TxIdle a' ∧
      receiveAll (2 ^ 17) (a'.sent.drop queuedPacket.sent.length)
        (giveSlots 4 (withVlans givenBuffers)) =
        .ok (b', outcomes (giveSlots 4 (withVlans givenBuffers))
          ([gatheredPacket].map (Gather.frame (taggingOf queuedPacket)))) ∧
      ∀ entry ∈ (usable (giveSlots 4 (withVlans givenBuffers))).zip [gatheredPacket],
        StoredIn (giveSlots 4 (withVlans givenBuffers)) b' entry.1
          (entry.2.arrives (taggingOf queuedPacket)) :=
  wire_delivers (2 ^ 17) queuedPacket (giveSlots 4 (withVlans givenBuffers)) 2
    [gatheredPacket] (by decide)
    ⟨by decide, by decide, by decide⟩ (by decide) ⟨rfl, rfl, rfl, rfl, rfl⟩ (by decide +kernel)
    (by unfold Gather.Fits; decide +kernel)
    (by unfold BuffersApart AddressSpace.Apart; decide +kernel)
    ⟨by decide, by decide, by decide, by decide⟩ (by unfold NoWrap; decide +kernel)
    ⟨by unfold AddressSpace.Apart; decide +kernel, by unfold AddressSpace.Apart; decide +kernel⟩
    (fun g hg => by
      rw [List.mem_singleton.mp hg]
      exact ⟨by decide +kernel, by decide +kernel, by decide +kernel⟩)
    (by decide) (by decide) (by decide +kernel)

end VirtualFirmware.Network
