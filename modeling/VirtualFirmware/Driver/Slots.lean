import VirtualFirmware.Driver.AsqSteps

/-!
# The slots of a ring in memory

The slots of a ring follow each other in memory, and the same addresses go on behind its end.
What is written to one slot, to a part of it or to a buffer elsewhere leaves the other slots
alone, so the done flags of a ring can be followed slot by slot.
-/

namespace VirtualFirmware.Driver

open Library Adminq Device

/-- The slot of that number, which may lie behind the ring's end, holds a descriptor that is
done. -/
def SlotDone (ram : AddressSpace) (base : UInt64) (i : ℕ) : Prop :=
  (descAt ram (recordAt AqDesc.size base i)).Done

instance (ram : AddressSpace) (base : UInt64) (i : ℕ) : Decidable (SlotDone ram base i) :=
  inferInstanceAs (Decidable (AqDesc.Done _))

/-- The driver's next slot is the record with the number `next_to_use`. -/
theorem AdminqInfo.slot_eq (aq : AdminqInfo) :
    aq.slot = recordAt AqDesc.size aq.dma aq.nextToUse.toNat :=
  adminqDesc_eq aq aq.nextToUse

section Frame

variable (ram : AddressSpace) (base : UInt64) {i j : ℕ}

/-- A write that is apart from a slot leaves it alone. -/
theorem descAt_of_apart {addr : UInt64} {bytes : List UInt8} {slot : UInt64}
    (h : AddressSpace.Apart slot AqDesc.size addr bytes.length) :
    descAt (ram.write addr bytes) slot = descAt ram slot := by
  rw [descAt, AddressSpace.read_write_of_apart h, descAt]

/-- A write inside one slot leaves the others alone. -/
theorem descAt_write_of_ne (hi : i < 2 ^ 32) (hj : j < 2 ^ 32) (hne : i ≠ j) (offset : ℕ)
    (bytes : List UInt8) (hinside : offset + bytes.length ≤ AqDesc.size) :
    descAt (ram.write (recordAt AqDesc.size base j + UInt64.ofNat offset) bytes)
      (recordAt AqDesc.size base i) =
      descAt ram (recordAt AqDesc.size base i) := by
  have hfits (k : ℕ) (hk : k < 2 ^ 32) : AqDesc.size * (k + 1) ≤ 2 ^ 63 := by
    unfold AqDesc.size
    omega
  exact descAt_of_apart ram (recordAt_apart_part base (hfits i hi) (hfits j hj) hne hinside)

/-- Overwriting one slot leaves the others alone. -/
theorem descAt_overwrite_of_ne (hi : i < 2 ^ 32) (hj : j < 2 ^ 32) (hne : i ≠ j)
    (bytes : List UInt8) (hlength : bytes.length ≤ AqDesc.size) :
    descAt (ram.write (recordAt AqDesc.size base j) bytes) (recordAt AqDesc.size base i) =
      descAt ram (recordAt AqDesc.size base i) := by
  have hwrite := descAt_write_of_ne ram base hi hj hne 0 bytes (by omega)
  have hzero : UInt64.ofNat 0 = 0 := rfl
  rwa [hzero, UInt64.add_zero] at hwrite

/-- Posting a command leaves the slots alone that it is not posted to. -/
theorem descAt_posted_of_ne (aq : AdminqInfo) (call : AsqCall) (m : Machine) (hi : i < 2 ^ 32)
    (hne : i ≠ aq.nextToUse.toNat)
    (hbuf : AddressSpace.Apart (recordAt AqDesc.size aq.dma i) AqDesc.size
      (aq.asqBi aq.nextToUse.toNat)
      call.buffSize.toNat) :
    descAt (posted aq call m).ram (recordAt AqDesc.size aq.dma i) =
      descAt m.ram (recordAt AqDesc.size aq.dma i) := by
  have huse : aq.nextToUse.toNat < 2 ^ 32 := Nat.lt_trans aq.nextToUse.toNat_lt (by decide)
  have hpart (ram : AddressSpace) (offset width value : ℕ)
      (hinside : offset + width ≤ AqDesc.size) :
      descAt (ram.write (aq.slot + UInt64.ofNat offset) (leBytes width value))
        (recordAt AqDesc.size aq.dma i) =
        descAt ram (recordAt AqDesc.size aq.dma i) := by
    rw [aq.slot_eq]
    exact descAt_write_of_ne ram aq.dma hi huse hne offset _ (by rwa [leBytes_length])
  have hdesc (desc : AqDesc) :
      descAt (m.ram.write aq.slot desc.bytes) (recordAt AqDesc.size aq.dma i) =
      descAt m.ram (recordAt AqDesc.size aq.dma i) := by
    rw [aq.slot_eq]
    exact descAt_overwrite_of_ne m.ram aq.dma hi huse hne _ (by rw [AqDesc.bytes_length])
  obtain ⟨desc, buff, buffSize⟩ := call
  cases buff with
  | none => exact hdesc _
  | some buff =>
    refine (hpart _ 28 4 _ (by decide)).trans ((hpart _ 24 4 _ (by decide)).trans
      ((hpart _ 4 2 _ (by decide)).trans ((descAt_of_apart _ ?_).trans (hdesc _))))
    rwa [Region.load_length]

end Frame

end VirtualFirmware.Driver
