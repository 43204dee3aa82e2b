import VirtualFirmware.Adminq.Descriptor
import VirtualFirmware.Messaging.Message

/-!
# Descriptors byte by byte

A frame shorter than the structure overwrites only the front of the descriptor in memory, so
the rest of the last descriptor stays. Fields are read back from the bytes, and setting a
field replaces its bytes. A frame that carries a whole descriptor is given at the end.
-/

namespace VirtualFirmware.Adminq.AqDesc

open Library

/-- The descriptor in memory after bytes were stored over its front. -/
def overlay (desc : AqDesc) (front : List UInt8) : AqDesc := ofRegion (desc.toRegion.store front)

/-- A word read from two bytes is written as these two. -/
theorem leBytes_ofNat_short {bytes : List UInt8} (h : bytes.length = 2) :
    leBytes 2 (UInt16.ofNat (leNat bytes)).toNat = bytes := by
  have hlt : leNat bytes < 2 ^ 16 := by simpa [h] using leNat_lt bytes
  rw [UInt16.toNat_ofNat', Nat.mod_eq_of_lt hlt, ← h, leBytes_leNat]

/-- A word read from four bytes is written as these four. -/
theorem leBytes_ofNat_long {bytes : List UInt8} (h : bytes.length = 4) :
    leBytes 4 (UInt32.ofNat (leNat bytes)).toNat = bytes := by
  have hlt : leNat bytes < 2 ^ 32 := by simpa [h] using leNat_lt bytes
  rw [UInt32.toNat_ofNat', Nat.mod_eq_of_lt hlt, ← h, leBytes_leNat]

/-- Reading a descriptor loses none of its bytes. -/
theorem bytes_ofBytes {bytes : List UInt8} (h : bytes.length = size) :
    (ofBytes bytes).bytes = bytes := by
  have hsize : bytes.length = 32 := h
  have short (offset : ℕ) (hoffset : offset + 2 ≤ 32) :
      leBytes 2 (UInt16.ofNat (fieldAt bytes offset 2)).toNat = (bytes.drop offset).take 2 :=
    leBytes_ofNat_short (by rw [List.length_take, List.length_drop]; omega)
  have long (offset : ℕ) (hoffset : offset + 4 ≤ 32) :
      leBytes 4 (UInt32.ofNat (fieldAt bytes offset 4)).toNat = (bytes.drop offset).take 4 :=
    leBytes_ofNat_long (by rw [List.length_take, List.length_drop]; omega)
  have cut (offset width : ℕ) :
      (bytes.drop offset).take width ++ bytes.drop (offset + width) = bytes.drop offset := by
    rw [← List.drop_drop, List.take_append_drop]
  have hlast : (bytes.drop 28).take 4 = bytes.drop 28 :=
    List.take_of_length_le (by rw [List.length_drop]; omega)
  simp only [AqDesc.bytes, ofBytes, List.append_assoc]
  rw [short 0 (by omega), short 2 (by omega), short 4 (by omega), short 6 (by omega),
    long 8 (by omega), long 12 (by omega), long 16 (by omega), long 20 (by omega),
    long 24 (by omega),
    long 28 (by omega), hlast, cut 24 4, cut 20 4, cut 16 4, cut 12 4, cut 8 4, cut 6 2, cut 4 2,
    cut 2 2, cut 0 2, List.drop_zero]

/-- The front comes from the bytes stored, the rest from the last descriptor. -/
theorem overlay_bytes (desc : AqDesc) {front : List UInt8} (h : front.length ≤ size) :
    (desc.overlay front).bytes = front ++ desc.bytes.drop front.length := by
  rw [overlay, ofRegion, bytes_ofBytes (Region.load_length _ _), Region.load_store_of_le _ h,
    toRegion_load]

/-- The front of the descriptor in memory is what was stored. -/
theorem take_overlay_bytes (desc : AqDesc) {front : List UInt8} (h : front.length ≤ size) :
    (desc.overlay front).bytes.take front.length = front := by
  rw [overlay_bytes desc h, List.take_left]

/-- A field is the same if the bytes agree up to its end. -/
theorem fieldAt_congr {left right : List UInt8} {count offset width : ℕ}
    (h : left.take count = right.take count) (hend : offset + width ≤ count) :
    fieldAt left offset width = fieldAt right offset width := by
  have hfield (bytes : List UInt8) :
      (bytes.drop offset).take width = ((bytes.take count).drop offset).take width := by
    rw [List.drop_take, List.take_take, Nat.min_eq_left (by omega)]
  rw [fieldAt, fieldAt, hfield, h, ← hfield]

/-- The opcode as it is read from the bytes. -/
theorem opcode_eq (desc : AqDesc) : desc.opcode = UInt16.ofNat (fieldAt desc.bytes 2 2) :=
  (congrArg opcode (ofBytes_bytes desc)).symm

/-- The opcode is the same if the first four bytes are. -/
theorem opcode_congr {left right : AqDesc} {count : ℕ}
    (h : left.bytes.take count = right.bytes.take count) (hcount : 4 ≤ count) :
    left.opcode = right.opcode := by
  rw [opcode_eq, opcode_eq, fieldAt_congr h hcount]

/-- The data length as it is read from the bytes. -/
theorem datalen_eq (desc : AqDesc) : desc.datalen = UInt16.ofNat (fieldAt desc.bytes 4 2) :=
  (congrArg datalen (ofBytes_bytes desc)).symm

/-- Setting the flags replaces the first two bytes. -/
theorem bytes_flags (desc : AqDesc) (flags : UInt16) :
    { desc with flags }.bytes = splice desc.bytes 0 (leBytes 2 flags.toNat) := rfl

/-- Setting the return value replaces its two bytes. -/
theorem bytes_retval (desc : AqDesc) (retval : UInt16) :
    { desc with retval }.bytes = splice desc.bytes 6 (leBytes 2 retval.toNat) := rfl

/-- Setting the parameters replaces their eight bytes. -/
theorem bytes_params (desc : AqDesc) (param0 param1 : UInt32) :
    { desc with param0, param1 }.bytes =
      splice desc.bytes 16 (leBytes 4 param0.toNat ++ leBytes 4 param1.toNat) := rfl

/-- Setting the done flag is a disjunction byte by byte. -/
theorem bytes_done (desc : AqDesc) :
    { desc with flags := desc.flags ||| flagDD }.bytes =
      List.zipWith (· ||| ·) desc.bytes (leBytes 2 flagDD.toNat ++ List.replicate 30 0) := by
  have hrest : List.zipWith (· ||| ·) (desc.bytes.drop 2) (List.replicate 30 0) =
      desc.bytes.drop 2 := by
    apply List.ext_getElem
    · simp [size]
    · intro i _ _
      rw [List.getElem_zipWith, List.getElem_replicate, UInt8.or_zero]
  have hsplit : desc.bytes = leBytes 2 desc.flags.toNat ++ desc.bytes.drop 2 := rfl
  rw [bytes_flags, UInt16.toNat_or, leBytes_or, hsplit, List.zipWith_append (by simp),
    ← hsplit, hrest]
  rfl

/-- Setting the done flag keeps the agreement of two fronts. -/
theorem take_bytes_done {left right : AqDesc} {count : ℕ}
    (h : left.bytes.take count = right.bytes.take count) :
    { left with flags := left.flags ||| flagDD }.bytes.take count =
      { right with flags := right.flags ||| flagDD }.bytes.take count := by
  rw [bytes_done, bytes_done, List.take_zipWith, List.take_zipWith, h]

end VirtualFirmware.Adminq.AqDesc

namespace VirtualFirmware.Adminq

open Library Messaging

/-- The message that carries a whole descriptor. -/
def descMessage (desc : AqDesc) : Message where
  payload := desc.bytes
  nonempty := by rw [AqDesc.bytes_length]; decide
  short := by rw [AqDesc.bytes_length]; decide

/-- The frame of a whole descriptor. -/
def descFrame (desc : AqDesc) : Frame := sentFrame (0, 0) desc.toRegion (descMessage desc)

/-- A descriptor with an opcode and a data length, zero elsewhere. -/
def command (opcode datalen : UInt16) : AqDesc := { AqDesc.zero with opcode, datalen }

end VirtualFirmware.Adminq
