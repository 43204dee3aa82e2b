import VirtualFirmware.Library.Bytes

/-!
# Regions that agree on their front

A computation that reads and writes only the front of a region gives the same front for all regions
that begin with the same bytes. A range of an address space is read in one piece or in several.
-/

namespace VirtualFirmware.Library.Region

variable {left right : Region} {count : ℕ}

/-- Regions with the same front have the same bytes there. -/
theorem apply_of_load_eq (h : left.load count = right.load count) {offset : ℕ}
    (hoffset : offset < count) :
    left offset = right offset := load_eq_load_iff.mp h offset hoffset

/-- Regions with the same front have the same ranges there. -/
theorem loadAt_of_load_eq (h : left.load count = right.load count) {offset length : ℕ}
    (hinside : offset + length ≤ count) : left.loadAt offset length = right.loadAt offset length :=
  load_eq_load_iff.mpr fun _ _ => apply_of_load_eq h (by omega)

/-- Regions with the same front still have when the same bytes are stored in both. -/
theorem load_storeAt_of_load_eq (h : left.load count = right.load count) (offset : ℕ)
    (bytes : List UInt8) :
    (left.storeAt offset bytes).load count = (right.storeAt offset bytes).load count := by
  refine load_eq_load_iff.mpr fun target htarget => ?_
  simp only [storeAt, apply_of_load_eq h htarget]

/-- Regions that agree on more agree on less. -/
theorem load_eq_of_le (h : left.load count = right.load count) {less : ℕ} (hle : less ≤ count) :
    left.load less = right.load less :=
  load_eq_load_iff.mpr fun _ hoffset => apply_of_load_eq h (hoffset.trans_le hle)

/-- The region built from bytes begins like the one they were loaded from. -/
theorem load_ofBytes_load (region : Region) (count : ℕ) :
    (ofBytes (region.load count)).load count = region.load count := by
  have h := load_ofBytes (region.load count)
  rwa [load_length] at h

/-- A front that is copied from another region. -/
theorem load_store_load (region other : Region) (count : ℕ) :
    (region.store (other.load count)).load count = other.load count := by
  have h := load_store region (other.load count)
  rwa [load_length] at h

/-- A front is loaded in two pieces. -/
theorem load_add (region : Region) (first second : ℕ) :
    region.load (first + second) = region.load first ++ region.loadAt first second := by
  rw [load, List.range_add, List.map_append, List.map_map]
  rfl

/-- Further bytes do not change the first ones of a region. -/
theorem ofBytes_append_left {left : List UInt8} {offset : ℕ} (h : offset < left.length)
    (right : List UInt8) :
    ofBytes (left ++ right) offset = ofBytes left offset := by
  rw [ofBytes, ofBytes, List.getD_append _ _ _ _ h]

/-- A byte of the front of the region built from bytes. -/
theorem ofBytes_take {bytes : List UInt8} {count offset : ℕ} (h : offset < count) :
    ofBytes (bytes.take count) offset = ofBytes bytes offset := by
  simp only [ofBytes, List.getD_eq_getElem?_getD, List.getElem?_take_of_lt h]

/-- Storing what is there changes nothing. -/
theorem store_load (region : Region) (count : ℕ) : region.store (region.load count) = region := by
  funext offset
  simp only [store, load]
  rcases Nat.lt_or_ge offset count with hlt | hge
  · rw [List.getD_eq_getElem _ _ (by simpa using hlt), List.getElem_map, List.getElem_range]
  · rw [List.getD_eq_default _ _ (by simpa using hge)]

/-- The middle of some bytes is at the offset where it begins. -/
theorem loadAt_ofBytes_append (left middle right : List UInt8) :
    (ofBytes (left ++ middle ++ right)).loadAt left.length middle.length = middle := by
  have hload : (ofBytes (left ++ middle ++ right)).loadAt left.length middle.length =
      (ofBytes middle).load middle.length := by
    refine load_eq_load_iff.mpr fun offset hoffset => ?_
    simp only [ofBytes]
    rw [List.append_assoc, List.getD_append_right _ _ _ _ (Nat.le_add_right _ _),
      Nat.add_sub_cancel_left, List.getD_append _ _ _ _ hoffset]
  rw [hload, load_ofBytes]

/-- Zeros behind some bytes are not seen. -/
theorem ofBytes_append_zeros (bytes : List UInt8) (count : ℕ) :
    ofBytes (bytes ++ List.replicate count 0) = ofBytes bytes := by
  funext offset
  simp only [ofBytes]
  rcases Nat.lt_or_ge offset bytes.length with hlt | hge
  · rw [List.getD_append _ _ _ _ hlt]
  · rw [List.getD_append_right _ _ _ _ hge, List.getD_eq_default _ _ hge,
      List.getD_eq_getElem?_getD, List.getElem?_replicate]
    split <;> rfl

/-- What is stored behind the front follows it. -/
theorem load_storeAt_append (region : Region) (offset : ℕ) (bytes : List UInt8) :
    (region.storeAt offset bytes).load (offset + bytes.length) = region.load offset ++ bytes := by
  have hfront : (region.storeAt offset bytes).load offset = region.load offset :=
    load_eq_load_iff.mpr fun _ htarget => storeAt_of_outside region (.inl htarget)
  have hback : (region.storeAt offset bytes).loadAt offset bytes.length = bytes := by
    rw [loadAt_storeAt, load_store]
  rw [load, List.range_add, List.map_append, List.map_map]
  exact congrArg₂ (· ++ ·) hfront hback

end VirtualFirmware.Library.Region

namespace VirtualFirmware.Library.AddressSpace

/-- A range is read in two pieces. -/
theorem read_add (space : AddressSpace) (addr : UInt64) (first second : ℕ) :
    space.read addr (first + second) =
      space.read addr first ++ space.read (addr + UInt64.ofNat first) second := by
  rw [read, List.range_add, List.map_append, List.map_map]
  refine congrArg _ (List.map_congr_left fun offset _ => ?_)
  rw [Function.comp_apply, UInt64.ofNat_add, UInt64.add_assoc]

/-- A write inside a range replaces a part of it. -/
theorem read_write_inside (space : AddressSpace) (addr : UInt64) {offset count : ℕ}
    {bytes : List UInt8} (h : offset + bytes.length ≤ count) (hcount : count ≤ 2 ^ 63) :
    (space.write (addr + UInt64.ofNat offset) bytes).read addr count =
      splice (space.read addr count) offset bytes := by
  obtain ⟨rest, rfl⟩ := Nat.exists_eq_add_of_le h
  have hfront : Apart addr offset (addr + UInt64.ofNat offset) bytes.length := by
    have hzero : addr + UInt64.ofNat 0 = addr := UInt64.add_zero addr
    have hapart := apart_of_offsets addr (by omega : 0 + offset ≤ 2 ^ 63)
      (by omega : offset + bytes.length ≤ 2 ^ 63) (.inl (by omega))
    rwa [hzero] at hapart
  have hback : Apart (addr + UInt64.ofNat (offset + bytes.length)) rest (addr + UInt64.ofNat offset)
      bytes.length :=
    apart_of_offsets addr (by omega) (by omega) (.inr (Nat.le_refl _))
  have hcut (space : AddressSpace) : space.read addr (offset + bytes.length + rest) =
      space.read addr offset ++ space.read (addr + UInt64.ofNat offset) bytes.length ++
        space.read (addr + UInt64.ofNat (offset + bytes.length)) rest := by
    rw [read_add, read_add]
  have htake : (space.read addr (offset + bytes.length + rest)).take offset =
      space.read addr offset := by
    rw [hcut, List.append_assoc]
    exact List.take_left' (read_length _ _ _)
  have hdrop : (space.read addr (offset + bytes.length + rest)).drop (offset + bytes.length) =
      space.read (addr + UInt64.ofNat (offset + bytes.length)) rest := by
    rw [hcut]
    exact List.drop_left' (by rw [List.length_append, read_length, read_length])
  rw [splice, htake, hdrop, hcut, read_write_of_apart hfront, read_write_of_apart hback,
    read_write space _ bytes (by omega)]

/-- Of two ranges that do not overlap, either may be named first. -/
theorem Apart.symm {target addr : UInt64} {count length : ℕ} (h : Apart target count addr length) :
    Apart addr length target count := by
  intro offset hoffset
  by_contra hover
  have hmeet := h (addr + UInt64.ofNat offset - target).toNat (Nat.not_le.mp hover)
  have hsame : target + UInt64.ofNat (addr + UInt64.ofNat offset - target).toNat - addr =
      UInt64.ofNat offset := by
    rw [UInt64.ofNat_toNat]
    grind
  rw [hsame, UInt64.toNat_ofNat'] at hmeet
  have hmod := Nat.mod_le offset (2 ^ 64)
  omega

/-- Fewer bytes of a range are apart as well. -/
theorem Apart.mono_left {target addr : UInt64} {count fewer length : ℕ}
    (h : Apart target count addr length) (hfewer : fewer ≤ count) :
    Apart target fewer addr length :=
  fun offset hoffset => h offset (hoffset.trans_le hfewer)

/-- A part of the second range is apart as well. -/
theorem Apart.inside {target addr : UInt64} {count length offset part : ℕ}
    (h : Apart target count addr length) (hpart : offset + part ≤ length) :
    Apart target count (addr + UInt64.ofNat offset) part := by
  intro i hi
  have hfar := h i hi
  have hlt := (target + UInt64.ofNat i - addr).toNat_lt
  have hrest : target + UInt64.ofNat i - (addr + UInt64.ofNat offset) =
      target + UInt64.ofNat i - addr - UInt64.ofNat offset := by grind
  rw [hrest, UInt64.toNat_sub, UInt64.toNat_ofNat']
  omega

end VirtualFirmware.Library.AddressSpace
