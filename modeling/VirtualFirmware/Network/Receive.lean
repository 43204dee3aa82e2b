import VirtualFirmware.Network.Transmit

/-!
# The device's receive path

`e1000_receive` filters a packet by its destination and its VLAN, strips the VLAN tag, and stores it
with the next descriptor of the receive ring that has a buffer. The slots from the head up to the
tail belong to the device. Head and tail are equal both when the device owns no slot and when it
owns all of them; `check_rxov`, which is cleared when the tail is written, tells which is meant.
-/

namespace VirtualFirmware.Network

open Library Device

/-- `struct e1000_rx_desc`. -/
structure RxDesc where
  bufferAddr : UInt64
  length : UInt16
  csum : UInt16
  status : UInt8
  errors : UInt8
  special : UInt16
deriving DecidableEq, Repr, Inhabited

/-- The size of a receive descriptor. -/
def RxDesc.size : ℕ := 16

/-- The descriptor with the given bytes. -/
def RxDesc.ofBytes (bytes : List UInt8) : RxDesc :=
  ⟨UInt64.ofNat (leNat (bytes.take 8)), UInt16.ofNat (leNat ((bytes.drop 8).take 2)),
    UInt16.ofNat (leNat ((bytes.drop 10).take 2)), bytes.getD 12 0, bytes.getD 13 0,
    UInt16.ofNat (leNat ((bytes.drop 14).take 2))⟩

/-- The bytes of a descriptor. -/
def RxDesc.toBytes (desc : RxDesc) : List UInt8 :=
  leBytes 8 desc.bufferAddr.toNat ++ leBytes 2 desc.length.toNat ++ leBytes 2 desc.csum.toNat ++
    [desc.status, desc.errors] ++ leBytes 2 desc.special.toNat

/-- `MIN_BUF_SIZE`, the shortest frame on an Ethernet. -/
def minBufSize : ℕ := 60

/-- `vlan_rx_filter_enabled`. -/
def vlanRxFilterEnabled (s : E1000State) : Bool := s.macReg MacReg.rctl.index &&& 0x40000 ≠ 0

/-- `is_vlan_packet`. -/
def isVlanPacket (s : E1000State) (buf : List UInt8) : Bool :=
  be16 (Region.ofBytes buf) 12 = vlanType s

/-- `fcs_len`: the length of the checksum of a frame, which is not there but is counted unless the
driver has it stripped. -/
def fcsLen (s : E1000State) : ℕ := if s.macReg MacReg.rctl.index &&& 0x04000000 ≠ 0 then 0 else 4

/-- The VLAN of a packet is one of those that `VFTA` lists. -/
def vlanListed (s : E1000State) (buf : List UInt8) : Bool :=
  let vid := be16 (Region.ofBytes buf) 14
  let vfta := s.macReg (MacReg.vfta.index + ((vid >>> 5) &&& 0x7f).toNat)
  vfta &&& (1 <<< (vid &&& 0x1f).toUInt32) ≠ 0

/-- A packet is for the address in an entry of `RA`, if the entry is valid. -/
def addressMatches (s : E1000State) (buf : List UInt8) (entry : ℕ) : Bool :=
  let low := s.macReg (MacReg.ra.index + 2 * entry)
  let high := s.macReg (MacReg.ra.index + 2 * entry + 1)
  high &&& 0x80000000 ≠ 0 && buf.take 6 == (leBytes 4 low.toNat ++ leBytes 4 high.toNat).take 6

/-- `mta_shift`. -/
def mtaShift (offset : UInt32) : UInt32 :=
  if offset = 0 then 4 else if offset = 1 then 3 else if offset = 2 then 2 else 0

/-- A packet is for a multicast address that `MTA` lists, which it does inexactly. -/
def multicastListed (s : E1000State) (buf : List UInt8) : Bool :=
  let shift := mtaShift ((s.macReg MacReg.rctl.index >>> 12) &&& 3)
  let f := ((((buf.getD 5 0).toUInt32 <<< 8) ||| (buf.getD 4 0).toUInt32) >>> shift) &&& 0xfff
  s.macReg (MacReg.mta.index + (f >>> 5).toNat) &&& (1 <<< (f &&& 0x1f)) ≠ 0

/-- `receive_filter`. -/
def receiveFilter (s : E1000State) (buf : List UInt8) : Bool :=
  let rctl := s.macReg MacReg.rctl.index
  if isVlanPacket s buf && vlanRxFilterEnabled s && !vlanListed s buf then false
  else if rctl &&& 0x8 ≠ 0 then true
  else if buf.getD 0 0 &&& 1 ≠ 0 ∧ rctl &&& 0x10 ≠ 0 then true
  else if rctl &&& 0x8000 ≠ 0 ∧ buf.take 6 = List.replicate 6 0xff then true
  else if (List.range 16).any (addressMatches s buf) then true
  else multicastListed s buf

/-- `e1000_set_link_status`. -/
def e1000SetLinkStatus (linkDown : Bool) (s : E1000State) : E1000State :=
  let oldStatus := s.macReg MacReg.status.index
  let s := s.setMac MacReg.status.index (if linkDown then oldStatus &&& ~~~ 2 else oldStatus ||| 2)
  if s.macReg MacReg.status.index ≠ oldStatus then setIcs s 0 4 else s

/-- `e1000_can_receive`. -/
def e1000CanReceive (s : E1000State) : Bool := s.macReg MacReg.rctl.index &&& 2 ≠ 0

/-- A packet that is padded to the minimum length. -/
def padded (buf : List UInt8) : List UInt8 := buf ++ List.replicate (minBufSize - buf.length) 0

/-- What is stored of a packet: the bytes, the VLAN tag, and the status that says there is one. -/
structure RxPacket where
  bytes : List UInt8
  special : UInt16
  status : UInt8
deriving DecidableEq, Repr

/-- The VLAN tag of a packet is stripped if VLANs are enabled. -/
def rxPacket (s : E1000State) (buf : List UInt8) : RxPacket :=
  if vlanEnabled s && isVlanPacket s buf then
    ⟨buf.take 12 ++ buf.drop 16, be16 (Region.ofBytes buf) 14, 8⟩
  else ⟨buf, 0, 0⟩

/-- A descriptor as it is written back: `DD`, and with a buffer `EOP` and `IXSM`. -/
def RxDesc.filled (s : E1000State) (packet : RxPacket) (desc : RxDesc) : RxDesc :=
  let desc := { desc with
    special := packet.special
    status := desc.status ||| (packet.status ||| 1) }
  if desc.bufferAddr ≠ 0 then
    { desc with
      length := UInt16.ofNat (packet.bytes.length + fcsLen s)
      status := desc.status ||| 6 }
  else desc

/-- The address of a slot of the receive ring. -/
def rxSlot (n : Nic) (index : UInt32) : UInt64 :=
  (n.reg .rdbah).toUInt64 <<< 32 + (n.reg .rdbal).toUInt64 +
    UInt64.ofNat RxDesc.size * index.toUInt64

/-- The descriptor in a slot. -/
def rxDescAt (n : Nic) (index : UInt32) : RxDesc :=
  RxDesc.ofBytes (n.ram.read (rxSlot n index) RxDesc.size)

/-- Guest RAM with the bytes of a packet in the buffer of a descriptor, if it has one. -/
def storePacket (packet : RxPacket) (desc : RxDesc) (ram : AddressSpace) : AddressSpace :=
  if desc.bufferAddr ≠ 0 then ram.write desc.bufferAddr packet.bytes else ram

/-- Raise some interrupt causes. -/
def Nic.raise (n : Nic) (causes : UInt32) : Nic := n.mapDev (setIcs · 0 causes)

/-- Store a packet with the descriptor at the head, write it back, and move the head. -/
def fillSlot (packet : RxPacket) (n : Nic) : Nic :=
  let index := n.reg .rdh
  let desc := rxDescAt n index
  let ram := storePacket packet desc n.ram
  let n := { n with ram := ram.write (rxSlot n index) (desc.filled n.dev packet).toBytes }
  (n.setReg .rdh (nextSlot (n.reg .rdlen) index)).mapDev fun s => { s with checkRxov := true }

/-- One round of the loop of `e1000_receive`, which is left with the packet stored or with an
overrun. -/
def receiveRound (rdhStart : UInt32) (packet : RxPacket) (n : Nic) :
    Except Stop (Nic ⊕ (Nic × Bool)) :=
  if n.reg .rdh = n.reg .rdt ∧ n.dev.checkRxov then .ok (.inr (n.raise 0x40, false))
  else
    let desc := rxDescAt n (n.reg .rdh)
    let n := fillSlot packet n
    if n.reg .rdh = rdhStart then .ok (.inr (n.raise 0x40, false))
    else if desc.bufferAddr = 0 then .ok (.inl n)
    else .ok (.inr (n, true))

/-- The statistics that `e1000_receive` keeps. -/
def countReceived (size : ℕ) (s : E1000State) : E1000State :=
  let s := s.setMac MacReg.gprc.index (s.macReg MacReg.gprc.index + 1)
  let s := s.setMac MacReg.tpr.index (s.macReg MacReg.tpr.index + 1)
  let n := s.macReg MacReg.torl.index + UInt32.ofNat size + 4
  let s := if n < s.macReg MacReg.torl.index then
      s.setMac MacReg.torh.index (s.macReg MacReg.torh.index + 1)
    else s
  s.setMac MacReg.torl.index n

/-- The interrupts for a packet: it was received, and few slots may be left. -/
def receivedCause (s : E1000State) : UInt32 :=
  let rdh := s.macReg MacReg.rdh.index
  let rdlen := s.macReg MacReg.rdlen.index
  let rdt := s.macReg MacReg.rdt.index
  let rdt := if rdt < rdh then rdt + rdlen / 16 else rdt
  if (rdt - rdh).toNat * RxDesc.size ≤ (rdlen >>> s.rxbufMinShift).toNat then 0x80 ||| 0x10
  else 0x80

/-- The packet has been stored: it is counted and interrupts are raised. -/
def received (size : ℕ) (n : Nic) : Nic :=
  let n := n.mapDev (countReceived size)
  n.raise (receivedCause n.dev)

/-- `e1000_receive`; the result is the size, or `none` for `-1`. -/
def e1000Receive (fuel : ℕ) (buf : List UInt8) (n : Nic) : Except Stop (Nic × Option ℕ) :=
  if !e1000CanReceive n.dev then .ok (n, none)
  else
    let buf := padded buf
    if buf.length > n.dev.rxbufSize.toNat then .ok (n, none)
    else if !receiveFilter n.dev buf then .ok (n, some buf.length)
    else
      let packet := rxPacket n.dev buf
      (loop .spent (receiveRound (n.reg .rdh) packet) fuel n).map fun s =>
        if s.2 then (received packet.bytes.length s.1, some packet.bytes.length) else (s.1, none)

end VirtualFirmware.Network
