import Mathlib.Data.List.GetD
import Mathlib.Data.List.Basic
import Mathlib.Tactic.Common
import Mathlib.Tactic.Ring

/-!
# Words as bytes, byte regions, and a 64-bit address space

Integers of any width are laid out in little-endian or big-endian order. A region is the
memory behind a pointer, read and overwritten from its start without a bound. An address
space wraps at its end, as 64-bit address arithmetic does.
-/

namespace VirtualFirmware.Library

/-- The lowest `width` bytes of a number, least significant first. -/
def leBytes : (width : ℕ) → ℕ → List UInt8
  | 0, _ => []
  | width + 1, n => UInt8.ofNat n :: leBytes width (n / 256)

/-- The number whose bytes are given, least significant first. -/
def leNat : List UInt8 → ℕ
  | [] => 0
  | byte :: rest => byte.toNat + 256 * leNat rest

/-- The lowest `width` bytes of a number, most significant first. -/
def beBytes (width n : ℕ) : List UInt8 := (leBytes width n).reverse

/-- The number whose bytes are given, most significant first. -/
def beNat (bytes : List UInt8) : ℕ := leNat bytes.reverse

/-- An encoded number occupies exactly its width. -/
@[simp] theorem leBytes_length (width n : ℕ) : (leBytes width n).length = width := by
  induction width generalizing n with
  | zero => rfl
  | succ width ih => simp [leBytes, ih]

/-- Byte order does not change the width. -/
@[simp] theorem beBytes_length (width n : ℕ) : (beBytes width n).length = width := by
  simp [beBytes]

/-- Decoding an encoded number keeps what fits the width. -/
theorem leNat_leBytes (width n : ℕ) : leNat (leBytes width n) = n % 256 ^ width := by
  induction width generalizing n with
  | zero => simp [leBytes, leNat, Nat.mod_one]
  | succ width ih =>
    have hbyte : (UInt8.ofNat n).toNat = n % 256 := UInt8.toNat_ofNat'
    rw [leBytes, leNat, ih, hbyte, Nat.pow_succ', Nat.mod_mul]

/-- A number that fits the width survives the little-endian round trip. -/
theorem leNat_leBytes_of_lt {width n : ℕ} (h : n < 256 ^ width) :
    leNat (leBytes width n) = n := by
  rw [leNat_leBytes, Nat.mod_eq_of_lt h]

/-- A number that fits the width survives the big-endian round trip. -/
theorem beNat_beBytes_of_lt {width n : ℕ} (h : n < 256 ^ width) :
    beNat (beBytes width n) = n := by
  rw [beNat, beBytes, List.reverse_reverse, leNat_leBytes_of_lt h]

/-- A number read from bytes fits their width. -/
theorem leNat_lt (bytes : List UInt8) : leNat bytes < 256 ^ bytes.length := by
  induction bytes with
  | nil => exact Nat.one_pos
  | cons byte rest ih =>
    have hbyte := byte.toNat_lt
    rw [leNat, List.length_cons, Nat.pow_succ']
    omega

/-- Encoding what was read gives the bytes back. -/
theorem leBytes_leNat (bytes : List UInt8) : leBytes bytes.length (leNat bytes) = bytes := by
  induction bytes with
  | nil => rfl
  | cons byte rest ih =>
    have hbyte := byte.toNat_lt
    have hlow : UInt8.ofNat (byte.toNat + 256 * leNat rest) = byte := by
      apply UInt8.toNat_inj.mp
      rw [UInt8.toNat_ofNat']
      omega
    have hhigh : (byte.toNat + 256 * leNat rest) / 256 = leNat rest := by omega
    rw [List.length_cons, leNat, leBytes, hlow, hhigh, ih]

/-- The disjunction of two numbers is taken byte by byte. -/
theorem leBytes_or (width m n : ℕ) :
    leBytes width (m ||| n) = List.zipWith (· ||| ·) (leBytes width m) (leBytes width n) := by
  induction width generalizing m n with
  | zero => rfl
  | succ width ih =>
    have hlow : UInt8.ofNat (m ||| n) = UInt8.ofNat m ||| UInt8.ofNat n := UInt8.ofNat_or m n
    have hhigh : (m ||| n) / 256 = m / 256 ||| n / 256 := Nat.or_div_two_pow (n := 8)
    rw [leBytes, hlow, hhigh, ih]
    rfl

/-- Replace the bytes at an offset. -/
def splice (bytes : List UInt8) (offset : ℕ) (new : List UInt8) : List UInt8 :=
  bytes.take offset ++ new ++ bytes.drop (offset + new.length)

/-- Byte strings that agree on their front still do after the same replacement. -/
theorem take_splice {left right : List UInt8} {count : ℕ} (hlength : left.length = right.length)
    (h : left.take count = right.take count) (offset : ℕ) (new : List UInt8) :
    (splice left offset new).take count = (splice right offset new).take count := by
  have hget {i : ℕ} (hi : i < count) : left[i]? = right[i]? := by
    rw [← List.getElem?_take_of_lt hi, h, List.getElem?_take_of_lt hi]
  apply List.ext_getElem?
  intro i
  by_cases hi : i < count
  · rw [List.getElem?_take_of_lt hi, List.getElem?_take_of_lt hi]
    simp only [splice, List.getElem?_append, List.length_append, List.length_take, hlength,
      List.getElem?_take, List.getElem?_drop, hget hi]
    split
    · rfl
    · by_cases hbeyond : right.length ≤ offset
      · rw [List.getElem?_eq_none (by omega), List.getElem?_eq_none (by omega)]
      · exact hget (by omega)
  · rw [List.getElem?_eq_none (by rw [List.length_take]; omega),
      List.getElem?_eq_none (by rw [List.length_take]; omega)]

/-- A replacement leaves the bytes before it. -/
theorem take_splice_of_le {bytes : List UInt8} {count offset : ℕ} (h : count ≤ offset)
    (hoffset : offset ≤ bytes.length) (new : List UInt8) :
    (splice bytes offset new).take count = bytes.take count := by
  rw [splice, List.append_assoc, List.take_append_of_le_length (by rw [List.length_take]; omega),
    List.take_take, Nat.min_eq_left h]

/-- A replacement behind some bytes is one in the rest. -/
theorem splice_skip {front : List UInt8} {offset : ℕ} (h : front.length ≤ offset)
    (rest new : List UInt8) :
    splice (front ++ rest) offset new = front ++ splice rest (offset - front.length) new := by
  obtain ⟨further, rfl⟩ := Nat.exists_eq_add_of_le h
  rw [Nat.add_sub_cancel_left, splice, splice, List.take_length_add_append, Nat.add_assoc,
    List.drop_length_add_append, List.append_assoc, List.append_assoc, List.append_assoc]

/-- Bytes at the front are replaced by as many others. -/
theorem splice_front {old new : List UInt8} (h : old.length = new.length) (rest : List UInt8) :
    splice (old ++ rest) 0 new = new ++ rest := by
  rw [splice, List.take_zero, Nat.zero_add, ← h, List.drop_left, List.nil_append]

/-- A byte string is replaced by one of its length. -/
theorem splice_whole {old new : List UInt8} (h : old.length = new.length) :
    splice old 0 new = new := by
  rw [← List.append_nil old, splice_front h, List.append_nil]

/-- The bytes behind a pointer, at offsets `0, 1, …`. -/
abbrev Region := ℕ → UInt8

namespace Region

/-- The region that starts with the given bytes and is zero after them. -/
def ofBytes (bytes : List UInt8) : Region := fun offset => bytes.getD offset 0

/-- The first `count` bytes. -/
def load (region : Region) (count : ℕ) : List UInt8 := (List.range count).map region

/-- Overwrite the front of the region. -/
def store (region : Region) (bytes : List UInt8) : Region :=
  fun offset => bytes.getD offset (region offset)

/-- Loading returns as many bytes as were asked for. -/
@[simp] theorem load_length (region : Region) (count : ℕ) :
    (region.load count).length = count := by
  simp [load]

/-- Regions load the same bytes when they agree on each of them. -/
theorem load_eq_load_iff {left right : Region} {count : ℕ} :
    left.load count = right.load count ↔ ∀ offset < count, left offset = right offset := by
  simp [load, List.map_inj_left]

/-- Loading fewer bytes loads the front of more. -/
theorem take_load (region : Region) {count more : ℕ} (h : count ≤ more) :
    (region.load more).take count = region.load count := by
  rw [load, load, ← List.map_take, List.take_range, Nat.min_eq_left h]

/-- Loading what was just stored returns it. -/
@[simp] theorem load_store (region : Region) (bytes : List UInt8) :
    (region.store bytes).load bytes.length = bytes := by
  apply List.ext_getElem
  · simp
  · intro offset _ hright
    simp only [load, store, List.getElem_map, List.getElem_range]
    exact List.getD_eq_getElem _ _ hright

/-- Loading less than what was stored returns the front of it. -/
theorem load_store_of_ge (region : Region) {bytes : List UInt8} {count : ℕ}
    (h : count ≤ bytes.length) :
    (region.store bytes).load count = bytes.take count := by
  rw [← take_load _ h, load_store]

/-- Loading more than what was stored returns what stood behind it. -/
theorem load_store_of_le (region : Region) {bytes : List UInt8} {count : ℕ}
    (h : bytes.length ≤ count) :
    (region.store bytes).load count = bytes ++ (region.load count).drop bytes.length := by
  apply List.ext_getElem
  · simp
    omega
  · intro offset hleft hright
    simp only [load, store, List.getElem_map, List.getElem_range]
    by_cases hstored : offset < bytes.length
    · rw [List.getElem_append_left hstored, List.getD_eq_getElem _ _ hstored]
    · rw [List.getElem_append_right (Nat.le_of_not_lt hstored),
        List.getD_eq_default _ _ (Nat.le_of_not_lt hstored)]
      simp only [List.getElem_drop, List.getElem_map, List.getElem_range]
      congr 1
      omega

/-- Overwrite the region from an offset on. -/
def storeAt (region : Region) (offset : ℕ) (bytes : List UInt8) : Region :=
  fun target => if target < offset then region target
    else bytes.getD (target - offset) (region target)

/-- The `count` bytes from an offset on. -/
def loadAt (region : Region) (offset count : ℕ) : List UInt8 :=
  load (fun target => region (offset + target)) count

/-- Loading from an offset returns as many bytes as were asked for. -/
@[simp] theorem loadAt_length (region : Region) (offset count : ℕ) :
    (region.loadAt offset count).length = count :=
  load_length _ _

/-- A byte outside the range that is overwritten stays. -/
theorem storeAt_of_outside (region : Region) {offset target : ℕ} {bytes : List UInt8}
    (h : target < offset ∨ offset + bytes.length ≤ target) :
    region.storeAt offset bytes target = region target := by
  unfold storeAt
  split
  · rfl
  · exact List.getD_eq_default _ _ (by omega)

/-- From the offset on, an overwritten region is one that is overwritten from its front. -/
theorem loadAt_storeAt (region : Region) (offset count : ℕ) (bytes : List UInt8) :
    (region.storeAt offset bytes).loadAt offset count =
      (store (fun target => region (offset + target)) bytes).load count := by
  refine load_eq_load_iff.mpr fun target _ => ?_
  simp [storeAt, store]

/-- What is stored in one range is not seen in another. -/
theorem loadAt_storeAt_of_disjoint (region : Region) {offset count written : ℕ} {bytes : List UInt8}
    (h : offset + count ≤ written ∨ written + bytes.length ≤ offset) :
    (region.storeAt written bytes).loadAt offset count = region.loadAt offset count :=
  load_eq_load_iff.mpr fun _ _ => storeAt_of_outside region (by omega)

/-- Loading from within what was stored at the front returns that part of it. -/
theorem loadAt_store (region : Region) {offset count : ℕ} {bytes : List UInt8}
    (h : offset + count ≤ bytes.length) :
    (region.store bytes).loadAt offset count = (bytes.drop offset).take count := by
  apply List.ext_getElem
  · simp
    omega
  · intro target hleft hright
    have htarget : offset + target < bytes.length := by
      rw [loadAt_length] at hleft
      omega
    simp only [loadAt, load, store, List.getElem_map, List.getElem_range, List.getElem_take,
      List.getElem_drop]
    exact List.getD_eq_getElem _ _ htarget

/-- A region built from bytes starts with them. -/
@[simp] theorem load_ofBytes (bytes : List UInt8) :
    (ofBytes bytes).load bytes.length = bytes :=
  load_store (fun _ => 0) bytes

end Region

/-- Byte contents of a 64-bit address space. -/
abbrev AddressSpace := UInt64 → UInt8

namespace AddressSpace

/-- Read `count` consecutive bytes, wrapping at the end of the space. -/
def read (space : AddressSpace) (addr : UInt64) (count : ℕ) : List UInt8 :=
  (List.range count).map fun offset => space (addr + UInt64.ofNat offset)

/-- Overwrite consecutive bytes, wrapping at the end of the space. -/
def write (space : AddressSpace) (addr : UInt64) (bytes : List UInt8) : AddressSpace :=
  fun target => bytes.getD (target - addr).toNat (space target)

/-- Reading returns as many bytes as were asked for. -/
@[simp] theorem read_length (space : AddressSpace) (addr : UInt64) (count : ℕ) :
    (space.read addr count).length = count := by
  simp [read]

/-- Writing no bytes changes nothing. -/
@[simp] theorem write_nil (space : AddressSpace) (addr : UInt64) :
    space.write addr [] = space := rfl

/-- The distance of a target from an address it was computed from. -/
theorem toNat_add_ofNat_sub (addr : UInt64) {offset : ℕ} (h : offset < 2 ^ 64) :
    (addr + UInt64.ofNat offset - addr).toNat = offset := by
  have hcancel : addr + UInt64.ofNat offset - addr = UInt64.ofNat offset := by
    rw [UInt64.add_comm, UInt64.add_sub_cancel]
  rw [hcancel, UInt64.toNat_ofNat', Nat.mod_eq_of_lt h]

/-- Reading back a written range returns the bytes written. -/
theorem read_write (space : AddressSpace) (addr : UInt64) (bytes : List UInt8)
    (h : bytes.length ≤ 2 ^ 64) : (space.write addr bytes).read addr bytes.length = bytes := by
  apply List.ext_getElem
  · simp
  · intro offset _ hright
    simp only [read, write, List.getElem_map, List.getElem_range,
      toNat_add_ofNat_sub addr (Nat.lt_of_lt_of_le hright h)]
    exact List.getD_eq_getElem _ _ hright

/-- Writes of the same length to one place differ if what they write differs. -/
theorem write_inj {space : AddressSpace} {addr : UInt64} {left right : List UInt8}
    (hlength : left.length = right.length) (h : left.length ≤ 2 ^ 64)
    (hwrite : space.write addr left = space.write addr right) : left = right := by
  rw [← read_write space addr left h, hwrite, hlength, read_write space addr right (hlength ▸ h)]

/-- Addresses outside a written range keep their contents. -/
theorem write_of_le (space : AddressSpace) (addr : UInt64) (bytes : List UInt8) {target : UInt64}
    (h : bytes.length ≤ (target - addr).toNat) : space.write addr bytes target = space target :=
  List.getD_eq_default _ _ h

/-- Writing back what a range already holds changes nothing. -/
@[simp] theorem write_read (space : AddressSpace) (addr : UInt64) (count : ℕ) :
    space.write addr (space.read addr count) = space := by
  funext target
  by_cases h : (target - addr).toNat < count
  · have htarget : addr + UInt64.ofNat (target - addr).toNat = target := by
      rw [UInt64.ofNat_toNat, UInt64.add_comm, UInt64.sub_add_cancel]
    have hlen : (target - addr).toNat < (space.read addr count).length := by simpa using h
    rw [write, List.getD_eq_getElem _ _ hlen]
    simp only [read, List.getElem_map, List.getElem_range, htarget]
  · exact write_of_le space addr _ (by simpa using Nat.le_of_not_lt h)

/-- No byte of the first range lies in the second. -/
def Apart (target : UInt64) (count : ℕ) (addr : UInt64) (length : ℕ) : Prop :=
  ∀ offset < count, length ≤ (target + UInt64.ofNat offset - addr).toNat

/-- A range keeps what it holds when another range is overwritten. -/
theorem read_write_of_apart {target addr : UInt64} {count : ℕ} {bytes : List UInt8}
    (h : Apart target count addr bytes.length) (space : AddressSpace) :
    (space.write addr bytes).read target count = space.read target count := by
  apply List.map_congr_left
  intro offset hoffset
  exact write_of_le space addr bytes (h offset (List.mem_range.mp hoffset))

/-- A shorter range is apart as well. -/
theorem Apart.mono {target addr : UInt64} {count length shorter : ℕ}
    (h : Apart target count addr length) (hshorter : shorter ≤ length) :
    Apart target count addr shorter :=
  fun offset hoffset => hshorter.trans (h offset hoffset)

/-- Ranges at different offsets from one address are apart if they do not overlap. -/
theorem apart_of_offsets (base : UInt64) {first second count length : ℕ}
    (hfirst : first + count ≤ 2 ^ 63) (hsecond : second + length ≤ 2 ^ 63)
    (h : first + count ≤ second ∨ second + length ≤ first) :
    Apart (base + UInt64.ofNat first) count (base + UInt64.ofNat second) length := by
  intro offset hoffset
  have hdistance : base + UInt64.ofNat first + UInt64.ofNat offset - (base + UInt64.ofNat second) =
      UInt64.ofNat (first + offset) - UInt64.ofNat second := by
    rw [UInt64.ofNat_add]
    grind
  rw [hdistance, UInt64.toNat_sub, UInt64.toNat_ofNat', UInt64.toNat_ofNat']
  omega

end AddressSpace

end VirtualFirmware.Library
