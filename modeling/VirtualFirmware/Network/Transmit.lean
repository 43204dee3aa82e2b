import VirtualFirmware.Device.MacWrites
import VirtualFirmware.Library.Loops

/-!
# The device's transmit path

`start_xmit` takes the descriptors between the head and the tail of the transmit ring.
`process_tx_desc` collects the data of a packet in `tx.data`, and `xmit_seg` completes the headers
and hands the packet to the network. With segmentation a packet is cut into segments that share one
header, which is kept in `tx.header`.

Lengths come from the guest. A length that does not fit `tx.data` would overwrite what follows it,
and some contexts make the loops run forever; the model stops at the first and marks the second.
-/

namespace VirtualFirmware.Network

open Library Device

/-- The fields of `struct e1000_tx` that are not saved. -/
structure TxUnsaved where
  vlanHeader : List UInt8
  vlanNeeded : Bool
  tse : Bool
  cptse : Bool
deriving DecidableEq, Inhabited

/-- The machine with the rest of the transmit state and the packets handed to the network; `tagged`
records for each of them whether a VLAN tag was inserted. -/
structure Nic extends Machine where
  txUnsaved : TxUnsaved
  sent : List (List UInt8)
  tagged : List Bool
deriving Inhabited

/-- Why the network functions do not return: a store behind the end of `tx.data`, or a loop that
takes more rounds than allowed. -/
inductive Stop where
  | overrun
  | spent
deriving DecidableEq, Repr

/-- The value of a register. -/
def Nic.reg (n : Nic) (reg : MacReg) : UInt32 := n.dev.macReg reg.index

/-- Change the device. -/
def Nic.mapDev (n : Nic) (f : E1000State → E1000State) : Nic := { n with dev := f n.dev }

/-- The device with another transmit context. -/
def withTx (s : E1000State) (tx : E1000Tx) : E1000State := { s with tx := tx }

/-- Change the transmit context. -/
def Nic.mapTx (n : Nic) (f : E1000Tx → E1000Tx) : Nic := n.mapDev fun s => withTx s (f s.tx)

/-- Assign to `tx.size`. -/
def Nic.setSize (n : Nic) (size : UInt16) : Nic := n.mapTx fun tp => { tp with size := size }

/-- Change the unsaved part of the transmit context. -/
def Nic.mapUnsaved (n : Nic) (f : TxUnsaved → TxUnsaved) : Nic :=
  { n with txUnsaved := f n.txUnsaved }

/-- Assign to a register. -/
def Nic.setReg (n : Nic) (reg : MacReg) (value : UInt32) : Nic :=
  n.mapDev (·.setMac reg.index value)

/-- `struct e1000_tx_desc`. -/
structure TxDesc where
  bufferAddr : UInt64
  lower : UInt32
  upper : UInt32
deriving DecidableEq, Repr, Inhabited

/-- The size of a transmit descriptor. -/
def TxDesc.size : ℕ := 16

/-- The descriptor with the given bytes. -/
def TxDesc.ofBytes (bytes : List UInt8) : TxDesc :=
  ⟨UInt64.ofNat (leNat (bytes.take 8)), UInt32.ofNat (leNat ((bytes.drop 8).take 4)),
    UInt32.ofNat (leNat ((bytes.drop 12).take 4))⟩

/-- `E1000_TXD_CMD_EOP`, the last descriptor of a packet. -/
def txdCmdEop : UInt32 := 0x01000000

/-- `E1000_TXD_CMD_TCP`. -/
def txdCmdTcp : UInt32 := 0x01000000

/-- `E1000_TXD_CMD_IP`. -/
def txdCmdIp : UInt32 := 0x02000000

/-- `E1000_TXD_CMD_TSE`, segmentation. -/
def txdCmdTse : UInt32 := 0x04000000

/-- `E1000_TXD_CMD_RS | E1000_TXD_CMD_RPS`, the status is written back. -/
def txdCmdReport : UInt32 := 0x18000000

/-- `E1000_TXD_CMD_DEXT`, not a legacy descriptor. -/
def txdCmdDext : UInt32 := 0x20000000

/-- `E1000_TXD_DTYP_D`, a data descriptor. -/
def txdDtypD : UInt32 := 0x00100000

/-- `E1000_TXD_CMD_VLE`, a VLAN tag is inserted. -/
def txdCmdVle : UInt32 := 0x40000000

/-- `E1000_TXD_POPTS_IXSM`. -/
def txdPoptsIxsm : UInt8 := 1

/-- `E1000_TXD_POPTS_TXSM`. -/
def txdPoptsTxsm : UInt8 := 2

/-- The capacity of `tx.data`. -/
def txDataSize : ℕ := 0x10000

/-- `be16_to_cpup`. -/
def be16 (data : Region) (offset : ℕ) : UInt16 := UInt16.ofNat (beNat (data.loadAt offset 2))

/-- `be32_to_cpupu`. -/
def be32 (data : Region) (offset : ℕ) : UInt32 := UInt32.ofNat (beNat (data.loadAt offset 4))

/-- `cpu_to_be16wu`. -/
def putBe16 (data : Region) (offset : ℕ) (value : UInt16) : Region :=
  data.storeAt offset (beBytes 2 value.toNat)

/-- `cpu_to_be32wu`. -/
def putBe32 (data : Region) (offset : ℕ) (value : UInt32) : Region :=
  data.storeAt offset (beBytes 4 value.toNat)

/-- The loop of `net_checksum_add` after its first rounds. -/
def netChecksumSum (buf : Region) : (count : ℕ) → UInt32
  | 0 => 0
  | i + 1 => netChecksumSum buf i + (if i % 2 = 1 then (buf i).toUInt32 else (buf i).toUInt32 <<< 8)

/-- `net_checksum_add`; a negative length sums nothing. -/
def netChecksumAdd (len : Int32) (buf : Region) : UInt32 := netChecksumSum buf len.toInt.toNat

/-- The loop of `net_checksum_finish`. -/
def netChecksumFold (sum : UInt32) : UInt32 :=
  if sum >>> 16 = 0 then sum else netChecksumFold ((sum &&& (0xffff : UInt32)) + (sum >>> 16))
termination_by sum.toNat
decreasing_by
  rename_i hcarry
  have hhigh : sum.toNat / 65536 ≠ 0 := by
    intro hzero
    apply hcarry
    apply UInt32.toNat_inj.mp
    rw [UInt32.toNat_shiftRight]
    simpa [Nat.shiftRight_eq_div_pow] using hzero
  have hlow : (sum &&& (0xffff : UInt32)).toNat = sum.toNat % 65536 := by
    rw [UInt32.toNat_and]
    exact Nat.and_two_pow_sub_one_eq_mod sum.toNat 16
  have hshift : (sum >>> 16).toNat = sum.toNat / 65536 := by
    rw [UInt32.toNat_shiftRight]
    simp [Nat.shiftRight_eq_div_pow]
  rw [UInt32.toNat_add, hlow, hshift]
  exact (Nat.mod_le _ _).trans_lt (by omega)

/-- `net_checksum_finish`. -/
def netChecksumFinish (sum : UInt32) : UInt16 := ~~~ (netChecksumFold sum).toUInt16

/-- `putsum`: store the checksum of the bytes from `css` on at `sloc`. -/
def putsum (data : Region) (n sloc css cse : UInt32) : Region :=
  let n := if cse ≠ 0 ∧ cse < n then cse + 1 else n
  if sloc < n - 1 then
    let sum := netChecksumAdd (n - css).toInt32 fun i => data (css.toNat + i)
    putBe16 data sloc.toNat (netChecksumFinish sum)
  else data

/-- `vlan_enabled`. -/
def vlanEnabled (s : E1000State) : Bool := s.macReg MacReg.ctrl.index &&& 0x40000000 ≠ 0

/-- The type of a VLAN tag, the lower half of `VET`. -/
def vlanType (s : E1000State) : UInt16 := (s.macReg MacReg.vet.index).toUInt16

/-- `is_vlan_txd`. -/
def isVlanTxd (txdLower : UInt32) : Bool := txdLower &&& txdCmdVle ≠ 0

/-- The fields of the IP header that `xmit_seg` adjusts in a segment: the length, and for IPv4 the
identification. -/
def ipFields (tp : E1000Tx) (data : Region) : Region :=
  let css := tp.ipcss.toNat
  let len := tp.size - tp.ipcss.toUInt16
  if tp.ip ≠ 0 then
    let data := putBe16 data (css + 2) len
    putBe16 data (css + 4) (be16 data (css + 4) + tp.tsoFrames)
  else putBe16 data (css + 4) len

/-- The variable `sofar` of `xmit_seg`: how far a segment is into the payload. -/
def sofar (tp : E1000Tx) : UInt32 := tp.tsoFrames.toUInt32 * tp.mss.toUInt32

/-- The fields of the TCP header: the sequence number, and the flags `PSH` and `FIN` unless the
segment is the last one. -/
def tcpFields (tp : E1000Tx) (data : Region) : Region :=
  let css := tp.tucss.toNat
  let data := putBe32 data (css + 4) (be32 data (css + 4) + sofar tp)
  if tp.paylen - sofar tp > tp.mss.toUInt32 then setReg data (css + 13) (data (css + 13) &&& ~~~ 9)
  else data

/-- The length of a segment from the TCP or UDP header on. -/
def transportLen (tp : E1000Tx) : UInt16 := tp.size - tp.tucss.toUInt16

/-- The fields of the TCP or UDP header. -/
def transportFields (tp : E1000Tx) (data : Region) : Region :=
  if tp.tcp ≠ 0 then tcpFields tp data else putBe16 data (tp.tucss.toNat + 4) (transportLen tp)

/-- The length is added to the pseudo-header's sum, which the driver left in the checksum's
place. -/
def pseudoHeader (tp : E1000Tx) (data : Region) : Region :=
  if tp.sumNeeded &&& txdPoptsTxsm ≠ 0 then
    let phsum := (be16 data tp.tucso.toNat).toUInt32 + (transportLen tp).toUInt32
    let phsum := (phsum >>> 16) + (phsum &&& 0xffff)
    putBe16 data tp.tucso.toNat phsum.toUInt16
  else data

/-- The fields of the headers that `xmit_seg` adjusts in a segment. -/
def segmentHeader (tp : E1000Tx) : Region :=
  pseudoHeader tp (transportFields tp (ipFields tp tp.data))

/-- The checksums that `xmit_seg` inserts. -/
def insertSums (tp : E1000Tx) (data : Region) : Region :=
  let data := if tp.sumNeeded &&& txdPoptsTxsm ≠ 0 then
      putsum data tp.size.toUInt32 tp.tucso.toUInt32 tp.tucss.toUInt32 tp.tucse.toUInt32
    else data
  if tp.sumNeeded &&& txdPoptsIxsm ≠ 0 then
    putsum data tp.size.toUInt32 tp.ipcso.toUInt32 tp.ipcss.toUInt32 tp.ipcse.toUInt32
  else data

/-- The packet that `xmit_seg` sends, and what it leaves in `tx.data`. A VLAN tag is inserted behind
the addresses; the four bytes of `tx.vlan` in front of `tx.data` make room for it. -/
def outgoing (u : TxUnsaved) (data : Region) (size : ℕ) : List UInt8 × Region :=
  if u.vlanNeeded then
    let vlan := data.load 4
    let data := data.store (data.loadAt 4 8)
    let data := data.storeAt 8 u.vlanHeader
    (vlan ++ data.load size, data)
  else (data.load size, data)

/-- The statistics that `xmit_seg` keeps. -/
def countSent (s : E1000State) : E1000State :=
  let s := s.setMac MacReg.tpt.index (s.macReg MacReg.tpt.index + 1)
  let s := s.setMac MacReg.gptc.index (s.macReg MacReg.gptc.index + 1)
  let n := s.macReg MacReg.totl.index
  let s := s.setMac MacReg.totl.index (n + s.tx.size.toUInt32)
  if s.macReg MacReg.totl.index < n then s.setMac MacReg.toth.index (s.macReg MacReg.toth.index + 1)
  else s

/-- The packet is cut into segments. -/
def TxUnsaved.segmenting (u : TxUnsaved) : Bool := u.tse && u.cptse

/-- `tx.data` with the headers of the packet completed. -/
def completedData (n : Nic) : Region :=
  insertSums n.dev.tx (if n.txUnsaved.segmenting then segmentHeader n.dev.tx else n.dev.tx.data)

/-- The packet that is sent and what is left in `tx.data`. -/
def outPacket (n : Nic) : List UInt8 × Region :=
  outgoing n.txUnsaved (completedData n) n.dev.tx.size.toNat

/-- The context behind a packet that was sent. -/
def sentTx (n : Nic) (tp : E1000Tx) : E1000Tx :=
  { tp with
    data := (outPacket n).2
    tsoFrames := if n.txUnsaved.segmenting then tp.tsoFrames + 1 else tp.tsoFrames }

/-- `qemu_send_packet`. -/
def sendPacket (packet : List UInt8) (n : Nic) : Nic :=
  { n with sent := n.sent ++ [packet], tagged := n.tagged ++ [n.txUnsaved.vlanNeeded] }

/-- `xmit_seg`. -/
def xmitSeg (n : Nic) : Nic := sendPacket (outPacket n).1 ((n.mapTx (sentTx n)).mapDev countSent)

/-- The fields that a context descriptor sets; it has the checksum fields in place of the
address. -/
def loadedContext (xp : TxDesc) (tp : E1000Tx) : E1000Tx :=
  let op := xp.lower
  let tcp : UInt8 := if op &&& txdCmdTcp ≠ 0 then 1 else 0
  let tucss := (xp.bufferAddr >>> 32).toUInt8
  let tucso := (xp.bufferAddr >>> 40).toUInt8
  { tp with
    ipcss := xp.bufferAddr.toUInt8
    ipcso := (xp.bufferAddr >>> 8).toUInt8
    ipcse := (xp.bufferAddr >>> 16).toUInt16
    tucss := tucss
    tucso := if tucso = 0 then tucss + (if tcp ≠ 0 then 16 else 6) else tucso
    tucse := (xp.bufferAddr >>> 48).toUInt16
    paylen := op &&& 0xfffff
    hdrLen := (xp.upper >>> 8).toUInt8
    mss := (xp.upper >>> 16).toUInt16
    ip := if op &&& txdCmdIp ≠ 0 then 1 else 0
    tcp := tcp
    tsoFrames := 0 }

/-- Whether a context descriptor enables segmentation. -/
def loadedTse (xp : TxDesc) (u : TxUnsaved) : TxUnsaved :=
  { u with tse := xp.lower &&& txdCmdTse ≠ 0 }

/-- What `process_tx_desc` does with a context descriptor. -/
def loadContext (xp : TxDesc) (n : Nic) : Nic :=
  (n.mapTx (loadedContext xp)).mapUnsaved (loadedTse xp)

/-- The number of bytes that `cpu_physical_memory_rw` moves: its length is an `int`, and a negative
one moves nothing. -/
def transferred (len : UInt32) : ℕ := len.toInt32.toInt.toNat

/-- `cpu_physical_memory_read` to the end of what is in `tx.data`. -/
def readData (addr : UInt64) (bytes : UInt32) (n : Nic) : Except Stop Nic :=
  if n.dev.tx.size.toNat + transferred bytes ≤ txDataSize then
    .ok (n.mapTx fun tp =>
      { tp with
        data := Region.storeAt tp.data tp.size.toNat (n.ram.read addr (transferred bytes)) })
  else .error .overrun

/-- Keep the header that all segments share. -/
def saveHeader (n : Nic) : Nic :=
  n.mapTx fun tp =>
    { tp with header := Region.store tp.header (Region.load tp.data tp.hdrLen.toNat) }

/-- Begin the next segment with the header. -/
def restoreHeader (n : Nic) : Nic :=
  n.mapTx fun tp =>
    { tp with
      data := Region.store tp.data (Region.load tp.header tp.hdrLen.toNat)
      size := tp.hdrLen.toUInt16 }

/-- How many bytes one round of the segmentation takes: no more than the segment has room for. -/
def segmentBytes (tp : E1000Tx) (splitSize : UInt32) : UInt32 :=
  let msh := tp.hdrLen.toUInt32 + tp.mss.toUInt32
  if tp.size.toUInt32 + splitSize > msh then msh - tp.size.toUInt32 else splitSize

/-- The bytes that were read belong to the segment. The header is kept once it is complete. -/
def addBytes (bytes : UInt32) (n : Nic) : Nic :=
  let hdr := n.dev.tx.hdrLen.toUInt32
  let sz := n.dev.tx.size.toUInt32 + bytes
  let saved := if sz ≥ hdr ∧ n.dev.tx.size.toUInt32 < hdr then saveHeader n else n
  saved.setSize sz.toUInt16

/-- A segment that is full with the bytes is sent. -/
def growSegment (bytes : UInt32) (n : Nic) : Nic :=
  let tp := n.dev.tx
  if tp.size.toUInt32 + bytes = tp.hdrLen.toUInt32 + tp.mss.toUInt32 then
    restoreHeader (xmitSeg (addBytes bytes n))
  else addBytes bytes n

/-- One round of the loop that cuts the data of a descriptor into segments; the state is the address
and the number of the bytes that are left. -/
def segmentRound (s : UInt64 × UInt32 × Nic) : Except Stop ((UInt64 × UInt32 × Nic) ⊕ Nic) :=
  let bytes := segmentBytes s.2.2.dev.tx s.2.1
  readData s.1 bytes s.2.2 >>= fun n =>
    if s.2.1 - bytes = 0 then .ok (.inr (growSegment bytes n))
    else .ok (.inl (s.1 + bytes.toUInt64, s.2.1 - bytes, growSegment bytes n))

/-- What `process_tx_desc` does with the bytes a descriptor points to. -/
def takeBytes (fuel : ℕ) (addr : UInt64) (splitSize : UInt32) (n : Nic) : Except Stop Nic :=
  if n.txUnsaved.segmenting then loop .spent segmentRound fuel (addr, splitSize, n)
  else if !n.txUnsaved.tse && n.txUnsaved.cptse then .ok n
  else (readData addr splitSize n).map fun n => n.setSize (n.dev.tx.size + splitSize.toUInt16)

/-- The packet is cut into segments and its header is not complete. -/
def headerMissing (n : Nic) : Bool :=
  n.txUnsaved.segmenting && n.dev.tx.size < n.dev.tx.hdrLen.toUInt16

/-- The context is made ready for the next packet. -/
def clearPacket (n : Nic) : Nic :=
  (n.mapTx fun tp => { tp with tsoFrames := 0, sumNeeded := 0, size := 0 }).mapUnsaved fun u =>
    { u with vlanNeeded := false, cptse := false }

/-- The end of a packet: what is left of it is sent. -/
def endPacket (n : Nic) : Nic := clearPacket (if headerMissing n then n else xmitSeg n)

/-- A data descriptor, not a legacy one. -/
def TxDesc.isData (dp : TxDesc) : Bool :=
  dp.lower &&& (txdCmdDext ||| txdDtypD) = txdCmdDext ||| txdDtypD

/-- A context descriptor. -/
def TxDesc.isContext (dp : TxDesc) : Bool := dp.lower &&& (txdCmdDext ||| txdDtypD) = txdCmdDext

/-- The last descriptor of a packet. -/
def TxDesc.isEop (dp : TxDesc) : Bool := dp.lower &&& txdCmdEop ≠ 0

/-- A data descriptor that asks for segmentation. -/
def TxDesc.isTse (dp : TxDesc) : Bool := dp.isData && dp.lower &&& txdCmdTse ≠ 0

/-- The number of bytes a descriptor points to. -/
def TxDesc.splitSize (dp : TxDesc) : UInt32 := dp.lower &&& 0xffff

/-- The checksums that a data descriptor asks for. -/
def loadedSums (dp : TxDesc) (tp : E1000Tx) : E1000Tx :=
  { tp with sumNeeded := if dp.isData then (dp.upper >>> 8).toUInt8 else tp.sumNeeded }

/-- The checksums that a data descriptor asks for, and whether the packet is cut into segments; a
legacy descriptor asks for no segments. -/
def loadPopts (dp : TxDesc) (n : Nic) : Nic :=
  (n.mapTx (loadedSums dp)).mapUnsaved fun u => { u with cptse := dp.isTse }

/-- The VLAN tag that a descriptor asks for, if tags are enabled. -/
def loadedVlan (enabled : Bool) (type : UInt16) (dp : TxDesc) (u : TxUnsaved) : TxUnsaved :=
  if enabled && isVlanTxd dp.lower && (u.cptse || dp.isEop) then
    { u with
      vlanNeeded := true
      vlanHeader := beBytes 2 type.toNat ++ beBytes 2 (dp.upper >>> 16).toNat }
  else u

/-- The VLAN tag that a descriptor asks for. -/
def loadVlan (dp : TxDesc) (n : Nic) : Nic :=
  n.mapUnsaved (loadedVlan (vlanEnabled n.dev) (vlanType n.dev) dp)

/-- `process_tx_desc`. -/
def processTxDesc (fuel : ℕ) (dp : TxDesc) (n : Nic) : Except Stop Nic :=
  if dp.isContext then .ok (loadContext dp n)
  else (takeBytes fuel dp.bufferAddr dp.splitSize (loadVlan dp (loadPopts dp n))).map fun n =>
    if dp.isEop then endPacket n else n

/-- The status of a descriptor is written back. -/
def TxDesc.reports (dp : TxDesc) : Bool := dp.lower &&& txdCmdReport ≠ 0

/-- The status that is written back: the descriptor is done and nothing went wrong. -/
def TxDesc.doneUpper (dp : TxDesc) : UInt32 := (dp.upper ||| 1) &&& ~~~ 0xe

/-- `txdesc_writeback`: the status of a descriptor that asks for it is written back. -/
def txdescWriteback (base : UInt64) (dp : TxDesc) (n : Nic) : Nic :=
  if dp.reports then { n with ram := n.ram.write (base + 12) (leBytes 4 dp.doneUpper.toNat) } else n

/-- What `txdesc_writeback` returns, `E1000_ICR_TXDW` if it wrote. -/
def txdescCause (dp : TxDesc) : UInt32 := if dp.reports then 1 else 0

/-- The address of a slot of the transmit ring. -/
def txSlot (n : Nic) (index : UInt32) : UInt64 :=
  (n.reg .tdbah).toUInt64 <<< 32 + (n.reg .tdbal).toUInt64 +
    UInt64.ofNat TxDesc.size * index.toUInt64

/-- The descriptor in a slot. -/
def txDescAt (n : Nic) (index : UInt32) : TxDesc :=
  TxDesc.ofBytes (n.ram.read (txSlot n index) TxDesc.size)

/-- The index behind a slot: the test for the ring's end is made after the increment. -/
def nextSlot (len index : UInt32) : UInt32 :=
  if (index + 1).toNat * TxDesc.size ≥ len.toNat then 0 else index + 1

/-- Take the descriptor in a slot and move the head; the state also collects the interrupt
causes. -/
def takeSlot (fuel : ℕ) (s : Nic × UInt32) (index : UInt32) : Except Stop (Nic × UInt32) :=
  let desc := txDescAt s.1 index
  (processTxDesc fuel desc s.1).map fun n =>
    let n := txdescWriteback (txSlot s.1 index) desc n
    (n.setReg .tdh (nextSlot (n.reg .tdlen) index), s.2 ||| txdescCause desc)

/-- One round of `start_xmit`, which ends at the tail or when the head is where it was at first. -/
def xmitRound (fuel : ℕ) (tdhStart : UInt32) (s : Nic × UInt32) :
    Except Stop ((Nic × UInt32) ⊕ (Nic × UInt32)) :=
  if s.1.reg .tdh = s.1.reg .tdt then .ok (.inr s)
  else (takeSlot fuel s (s.1.reg .tdh)).map fun s =>
    if s.1.reg .tdh = tdhStart then .inr s else .inl s

/-- `start_xmit`, which begins with the cause `E1000_ICS_TXQE`. -/
def startXmit (fuel : ℕ) (n : Nic) : Except Stop Nic :=
  if n.reg .tctl &&& 2 = 0 then .ok n
  else (loop .spent (xmitRound fuel (n.reg .tdh)) fuel (n, 2)).map fun s =>
    s.1.mapDev (setIcs · 0 s.2)

/-- `set_tctl`, which serves `TCTL` and the tail of the transmit ring. -/
def setTctl (fuel index : ℕ) (val : UInt32) (n : Nic) : Except Stop Nic :=
  let n := n.mapDev (·.setMac index val)
  startXmit fuel (n.setReg .tdt (n.reg .tdt &&& 0xffff))

end VirtualFirmware.Network
