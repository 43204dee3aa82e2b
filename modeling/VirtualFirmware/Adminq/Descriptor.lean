import VirtualFirmware.Library.Bytes

/-!
# The admin-queue descriptor

`struct e1000_aq_desc` as both ends of the socket and the guest driver lay it out: 32
little-endian bytes without padding. The descriptor in memory is the region behind its
address, so a message shorter than the structure overwrites only its front.
-/

namespace VirtualFirmware.Adminq

open Library

/-- `struct e1000_aq_desc`. -/
structure AqDesc where
  flags : UInt16
  opcode : UInt16
  datalen : UInt16
  retval : UInt16
  cookieHigh : UInt32
  cookieLow : UInt32
  param0 : UInt32
  param1 : UInt32
  addrHigh : UInt32
  addrLow : UInt32
deriving DecidableEq, Repr

/-- `enum e1000_admin_queue_cmd`. -/
inductive AqOpcode where
  | getVersion
  | driverHeartbeat
  | echo
deriving DecidableEq, Repr

/-- The known command a 16-bit opcode stands for. -/
def AqOpcode.ofCode (code : UInt16) : Option AqOpcode :=
  if code = 0x0001 then some .getVersion
  else if code = 0x0002 then some .driverHeartbeat
  else if code = 0x0003 then some .echo
  else none

/-- `E1000_AQ_FLAG_DD`: the descriptor is done. -/
def flagDD : UInt16 := 0x0001

/-- `E1000_AQ_FLAG_ERR`: the command failed. -/
def flagERR : UInt16 := 0x0004

/-- `E1000_AQ_RC_ENOSYS` of the device and the firmware. -/
def rcENOSYS : UInt16 := 1

namespace AqDesc

/-- `sizeof(struct e1000_aq_desc)`. -/
def size : ℕ := 32

/-- The descriptor of zeros. -/
def zero : AqDesc := ⟨0, 0, 0, 0, 0, 0, 0, 0, 0, 0⟩

/-- The structure's bytes in memory. -/
def bytes (desc : AqDesc) : List UInt8 :=
  leBytes 2 desc.flags.toNat ++ leBytes 2 desc.opcode.toNat ++ leBytes 2 desc.datalen.toNat ++
    leBytes 2 desc.retval.toNat ++ leBytes 4 desc.cookieHigh.toNat ++
    leBytes 4 desc.cookieLow.toNat ++ leBytes 4 desc.param0.toNat ++ leBytes 4 desc.param1.toNat ++
    leBytes 4 desc.addrHigh.toNat ++ leBytes 4 desc.addrLow.toNat

/-- The number in `width` bytes at an offset. -/
def fieldAt (bytes : List UInt8) (offset width : ℕ) : ℕ := leNat ((bytes.drop offset).take width)

/-- The structure read from its bytes. -/
def ofBytes (bytes : List UInt8) : AqDesc where
  flags := UInt16.ofNat (fieldAt bytes 0 2)
  opcode := UInt16.ofNat (fieldAt bytes 2 2)
  datalen := UInt16.ofNat (fieldAt bytes 4 2)
  retval := UInt16.ofNat (fieldAt bytes 6 2)
  cookieHigh := UInt32.ofNat (fieldAt bytes 8 4)
  cookieLow := UInt32.ofNat (fieldAt bytes 12 4)
  param0 := UInt32.ofNat (fieldAt bytes 16 4)
  param1 := UInt32.ofNat (fieldAt bytes 20 4)
  addrHigh := UInt32.ofNat (fieldAt bytes 24 4)
  addrLow := UInt32.ofNat (fieldAt bytes 28 4)

/-- The memory a descriptor variable occupies. -/
def toRegion (desc : AqDesc) : Region := Region.ofBytes desc.bytes

/-- The descriptor that stands at the front of a region. -/
def ofRegion (region : Region) : AqDesc := ofBytes (region.load size)

/-- The guest address of the command's data buffer. -/
def bufferAddr (desc : AqDesc) : UInt64 :=
  desc.addrHigh.toUInt64 <<< 32 ||| desc.addrLow.toUInt64

/-- The done flag is set. -/
def Done (desc : AqDesc) : Prop := desc.flags &&& flagDD ≠ 0

instance (desc : AqDesc) : Decidable desc.Done := inferInstanceAs (Decidable (_ ≠ _))

/-- Setting the flag makes the descriptor done. -/
theorem done_setDone (desc : AqDesc) : Done { desc with flags := desc.flags ||| flagDD } := by
  have hbit : (desc.flags ||| flagDD) &&& flagDD = flagDD := by
    apply UInt16.toBitVec_inj.mp
    ext i hi
    simp only [UInt16.toBitVec_and, UInt16.toBitVec_or, BitVec.getElem_and, BitVec.getElem_or]
    cases flagDD.toBitVec[i] <;> simp
  intro hzero
  exact absurd (hbit.symm.trans hzero) (by decide)

/-- A descriptor occupies exactly its size. -/
@[simp] theorem bytes_length (desc : AqDesc) : desc.bytes.length = size := by
  simp [bytes, size]

/-- Every field survives the way through memory. -/
@[simp] theorem ofBytes_bytes (desc : AqDesc) : ofBytes desc.bytes = desc := by
  have short (offset : ℕ) (value : UInt16)
      (h : (desc.bytes.drop offset).take 2 = leBytes 2 value.toNat) :
      UInt16.ofNat (fieldAt desc.bytes offset 2) = value := by
    rw [fieldAt, h, leNat_leBytes_of_lt value.toNat_lt, UInt16.ofNat_toNat]
  have long (offset : ℕ) (value : UInt32)
      (h : (desc.bytes.drop offset).take 4 = leBytes 4 value.toNat) :
      UInt32.ofNat (fieldAt desc.bytes offset 4) = value := by
    rw [fieldAt, h, leNat_leBytes_of_lt value.toNat_lt, UInt32.ofNat_toNat]
  unfold ofBytes
  rw [short 0 desc.flags rfl, short 2 desc.opcode rfl, short 4 desc.datalen rfl,
    short 6 desc.retval rfl, long 8 desc.cookieHigh rfl, long 12 desc.cookieLow rfl,
    long 16 desc.param0 rfl, long 20 desc.param1 rfl, long 24 desc.addrHigh rfl,
    long 28 desc.addrLow rfl]

/-- A descriptor variable starts with the descriptor's bytes. -/
@[simp] theorem toRegion_load (desc : AqDesc) : desc.toRegion.load size = desc.bytes := by
  rw [toRegion, ← bytes_length desc, Region.load_ofBytes]

/-- Receiving a whole descriptor replaces the one in memory. -/
@[simp] theorem ofRegion_store_bytes (region : Region) (desc : AqDesc) :
    ofRegion (region.store desc.bytes) = desc := by
  rw [ofRegion, ← bytes_length desc, Region.load_store, ofBytes_bytes]

end AqDesc

end VirtualFirmware.Adminq
