import VirtualFirmware.Library.Bytes

/-!
# Records that follow each other in memory

A ring of descriptors is an array of records of one size in an address space. Code computes the
address of a record from the base, the size and an index of some width; what matters is the number
of the record. Different records do not overlap, and neither do their parts.
-/

namespace VirtualFirmware.Library

/-- The address of a record by its number, which may lie behind the end of the array. -/
def recordAt (size : ℕ) (base : UInt64) (i : ℕ) : UInt64 := base + UInt64.ofNat (size * i)

/-- The address that code computes from an index is that of the record of this number. -/
theorem add_mul_eq_recordAt (size : ℕ) (base index : UInt64) :
    base + UInt64.ofNat size * index = recordAt size base index.toNat := by
  rw [recordAt, UInt64.ofNat_mul, UInt64.ofNat_toNat]

/-- A part of a record, by the number of bytes in front of it. -/
theorem recordAt_add (size : ℕ) (base : UInt64) (i offset : ℕ) :
    recordAt size base i + UInt64.ofNat offset = base + UInt64.ofNat (size * i + offset) := by
  rw [recordAt, UInt64.ofNat_add, UInt64.add_assoc]

section Apart

variable {size i j : ℕ} (base : UInt64) (hi : size * (i + 1) ≤ 2 ^ 63)
  (hj : size * (j + 1) ≤ 2 ^ 63)
  (hne : i ≠ j)

include hi hj hne

/-- A part of one record does not overlap another record. -/
theorem recordAt_apart_part {offset length : ℕ} (hpart : offset + length ≤ size) :
    AddressSpace.Apart (recordAt size base i) size (recordAt size base j + UInt64.ofNat offset)
      length := by
  rw [recordAt_add, recordAt]
  rw [Nat.mul_succ] at hi hj
  refine AddressSpace.apart_of_offsets base hi (by omega) ?_
  obtain hlt | hlt := Nat.lt_or_gt_of_ne hne
  · have hstep : size * (i + 1) ≤ size * j := Nat.mul_le_mul_left size hlt
    rw [Nat.mul_succ] at hstep
    exact .inl (by omega)
  · have hstep : size * (j + 1) ≤ size * i := Nat.mul_le_mul_left size hlt
    rw [Nat.mul_succ] at hstep
    exact .inr (by omega)

/-- Different records do not overlap. -/
theorem recordAt_apart :
    AddressSpace.Apart (recordAt size base i) size (recordAt size base j) size := by
  have hpart := recordAt_apart_part base hi hj hne (Nat.zero_add size).le
  have hzero : recordAt size base j + UInt64.ofNat 0 = recordAt size base j := UInt64.add_zero _
  rwa [hzero] at hpart

end Apart

end VirtualFirmware.Library
