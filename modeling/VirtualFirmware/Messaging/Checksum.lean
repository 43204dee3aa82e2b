import Mathlib.Logic.Equiv.Defs
import VirtualFirmware.Library.Parity
import VirtualFirmware.Messaging.Message

/-!
# What the checksum detects

`chksum` is the exclusive-or of the words of a message, the last one filled up with zeros. Each bit
of a message enters one bit of the sum, and bits less than 32 positions apart enter different ones,
so a change within 32 consecutive positions changes the sum.
-/

namespace VirtualFirmware.Messaging

open Library

/-- The message, with zeros behind it. -/
def padded (data : Region) (length : ℕ) : Region := fun i => if i < length then data i else 0

/-- A bit of a byte that was shifted within a word. -/
theorem getLsbD_byte_shiftLeft (byte : UInt8) {amount : UInt32} (h : amount < 32) (lane : ℕ) :
    (byte.toUInt32 <<< amount).toBitVec.getLsbD lane =
      (decide (lane < 32) && !decide (lane < amount.toNat) &&
        byte.toBitVec.getLsbD (lane - amount.toNat)) := by
  have hamount : amount.toNat < 32 := h
  simp only [UInt32.toBitVec_shiftLeft, UInt8.toBitVec_toUInt32, BitVec.shiftLeft_eq',
    BitVec.getLsbD_shiftLeft, BitVec.getLsbD_setWidth, BitVec.toNat_umod, UInt32.toNat_toBitVec]
  grind

/-- Each bit of a word is a bit of one of its bytes. -/
theorem getLsbD_chksumWord (data : Region) (i : ℕ) {lane : ℕ} (h : lane < 32) :
    (chksumWord data i).toBitVec.getLsbD lane =
      (data (i + lane / 8)).toBitVec.getLsbD (lane % 8) := by
  obtain ⟨q, r, hr, rfl⟩ : ∃ q r, r < 8 ∧ lane = 8 * q + r :=
    ⟨lane / 8, lane % 8, by omega, by omega⟩
  have hq : (8 * q + r) / 8 = q := by omega
  have hr' : (8 * q + r) % 8 = r := by omega
  rw [hq, hr', chksumWord, UInt32.toBitVec_or, UInt32.toBitVec_or, UInt32.toBitVec_or,
    BitVec.getLsbD_or, BitVec.getLsbD_or, BitVec.getLsbD_or, getLsbD_byte_shiftLeft _ (by decide),
    getLsbD_byte_shiftLeft _ (by decide), getLsbD_byte_shiftLeft _ (by decide)]
  simp only [UInt8.toBitVec_toUInt32, BitVec.getLsbD_setWidth, UInt32.reduceToNat, h, decide_true,
    Bool.true_and]
  -- only the byte the bit stands in has it; the others were shifted past it or end before it
  obtain rfl | rfl | rfl | rfl : q = 0 ∨ q = 1 ∨ q = 2 ∨ q = 3 := by omega
  · simp [show r < 16 by omega, show r < 24 by omega, hr]
  · simp [show 8 + r < 16 by omega, show 8 + r < 24 by omega]
  · simp [show ¬16 + r < 8 by omega, show 16 + r < 24 by omega, show 8 ≤ 16 + r - 8 by omega,
      show 8 ≤ 16 + r by omega]
  · simp [show 8 ≤ 24 + r - 8 by omega, show 8 ≤ 24 + r - 16 by omega, show 8 ≤ 24 + r by omega]

/-- The word loop takes the exclusive-or of the words and stops behind the last. -/
theorem chksumLoop_eq (data : Region) (rounds i : ℕ) (sum : UInt32) :
    chksumLoop data rounds i sum =
      (sum ^^^ xorUpTo rounds fun k => chksumWord data (i + 4 * k), i + 4 * rounds) := by
  induction rounds generalizing i sum with
  | zero => simp [chksumLoop, xorUpTo]
  | succ rounds ih =>
    have hshift (k : ℕ) : i + 4 + 4 * k = i + 4 * (k + 1) := by omega
    rw [chksumLoop, ih, xorUpTo, UInt32.xor_assoc]
    simp only [hshift, Nat.mul_zero, Nat.add_zero]

/-- A word within the message does not see the zeros behind it. -/
theorem chksumWord_padded {data : Region} {length i : ℕ} (h : i + 3 < length) :
    chksumWord (padded data length) i = chksumWord data i := by
  simp only [chksumWord, padded, show i < length by omega, show i + 1 < length by omega,
    show i + 2 < length by omega, h, if_true]

/-- The word of the bytes left over is the last word of the message, filled up with zeros. -/
theorem chksumWord_extra (data : Region) {extra i : ℕ} (hpos : 0 < extra) (hextra : extra < 4) :
    ((if extra ≥ 1 then (data i).toUInt32 else 0) |||
      (if extra ≥ 2 then (data (i + 1)).toUInt32 else 0) <<< 8 |||
      (if extra ≥ 3 then (data (i + 2)).toUInt32 else 0) <<< 16) =
      chksumWord (padded data (i + extra)) i := by
  obtain rfl | rfl | rfl : extra = 1 ∨ extra = 2 ∨ extra = 3 := by omega
  · simp [chksumWord, padded]
  · simp [chksumWord, padded]
  · simp [chksumWord, padded]

/-- The checksum is the exclusive-or of the words of the message with zeros behind it. -/
theorem chksum_eq (data : Region) (length : UInt16) :
    chksum data length =
      xorUpTo ((length.toNat + 3) / 4) fun k => chksumWord (padded data length.toNat) (4 * k) := by
  unfold chksum
  dsimp only
  generalize length.toNat = n
  have hrounds : (n - n % 4) / 4 = n / 4 := by omega
  have hwhole : (xorUpTo (n / 4) fun k => chksumWord data (0 + 4 * k)) =
      xorUpTo (n / 4) fun k => chksumWord (padded data n) (4 * k) :=
    xorUpTo_congr fun k hk => by rw [Nat.zero_add, chksumWord_padded (by omega)]
  rw [hrounds, chksumLoop_eq, hwhole, UInt32.zero_xor, Nat.zero_add]
  dsimp only
  by_cases hextra : n % 4 > 0
  · have hcount : (n + 3) / 4 = n / 4 + 1 := by omega
    have hlength : 4 * (n / 4) + n % 4 = n := by omega
    rw [if_pos hextra, chksumWord_extra data hextra (Nat.mod_lt _ (by decide)), hlength, hcount,
      xorUpTo_succ]
  · have hcount : (n + 3) / 4 = n / 4 := by omega
    rw [if_neg hextra, hcount]

/-- The checksum depends on the message's bytes only. -/
theorem chksum_congr {left right : Region} {length : UInt16}
    (h : ∀ offset, offset < length.toNat → left offset = right offset) :
    chksum left length = chksum right length := by
  have hpadded : padded left length.toNat = padded right length.toNat := by
    funext i
    unfold padded
    split
    · next hi => exact h i hi
    · rfl
  rw [chksum_eq, chksum_eq, hpadded]

/-- The bit at a position, with the bits of a byte counted in some order. -/
def bitAt (order : Equiv.Perm (Fin 8)) (bytes : Region) (position : ℕ) : Bool :=
  (bytes (position / 8)).toBitVec.getLsbD (order ⟨position % 8, Nat.mod_lt _ (by decide)⟩)

/-- Two messages of one length differ, and only within 32 consecutive bit positions. -/
structure Burst (order : Equiv.Perm (Fin 8)) (length : ℕ) (left right : Region) : Prop where
  differ : ∃ i < length, left i ≠ right i
  within : ∃ start, ∀ position < 8 * length, bitAt order left position ≠
    bitAt order right position →
    start ≤ position ∧ position < start + 32

/-- Each bit of the checksum is the parity of the bits of the message that stand 32 positions
apart. -/
theorem getLsbD_chksum (data : Region) (length : UInt16) {lane : ℕ} (h : lane < 32) :
    (chksum data length).toBitVec.getLsbD lane = parity ((length.toNat + 3) / 4) fun k =>
      (padded data length.toNat (4 * k + lane / 8)).toBitVec.getLsbD (lane % 8) := by
  rw [chksum_eq, getLsbD_xorUpTo]
  exact parity_congr fun k _ => getLsbD_chksumWord _ _ h

/-- Every bit of a byte stands at some position. -/
theorem bitAt_position (order : Equiv.Perm (Fin 8)) (bytes : Region) (i : ℕ) (bit : Fin 8) :
    bitAt order bytes (8 * i + order.symm bit) = (bytes i).toBitVec.getLsbD bit := by
  have hbyte : (8 * i + (order.symm bit).val) / 8 = i := by omega
  have hbit : (⟨(8 * i + (order.symm bit).val) % 8, Nat.mod_lt _ (by decide)⟩ : Fin 8) =
      order.symm bit := by
    apply Fin.ext
    show (8 * i + (order.symm bit).val) % 8 = (order.symm bit).val
    omega
  rw [bitAt, hbit, hbyte, Equiv.apply_symm_apply]

/-- Bytes that differ differ in a bit. -/
theorem exists_bit_ne {left right : UInt8} (h : left ≠ right) :
    ∃ bit : Fin 8, left.toBitVec.getLsbD bit ≠ right.toBitVec.getLsbD bit := by
  by_contra hsame
  refine h (UInt8.toBitVec_inj.mp (BitVec.eq_of_getLsbD_eq fun bit hbit => ?_))
  by_contra hne
  exact hsame ⟨⟨bit, hbit⟩, hne⟩

/-- A burst changes the checksum. -/
theorem chksum_ne_of_burst {order : Equiv.Perm (Fin 8)} {length : UInt16} {left right : Region}
    (h : Burst order length.toNat left right) : chksum left length ≠ chksum right length := by
  obtain ⟨i, hi, hne⟩ := h.differ
  obtain ⟨start, hwithin⟩ := h.within
  obtain ⟨bit, hbit⟩ := exists_bit_ne hne
  -- a byte that differs in this bit does so within the window
  have hchanged {j : ℕ} (hj : j < length.toNat)
      (hdiff : (left j).toBitVec.getLsbD bit ≠ (right j).toBitVec.getLsbD bit) :
      start ≤ 8 * j + (order.symm bit).val ∧ 8 * j + (order.symm bit).val < start + 32 := by
    refine hwithin _ (by omega) ?_
    rwa [bitAt_position, bitAt_position]
  have hfirst := hchanged hi hbit
  -- the lane of the bit takes one bit from each word, and only the one from the word of `i` differs
  have hlane : 8 * (i % 4) + bit.val < 32 := by omega
  have hbyte (k : ℕ) : 4 * k + (8 * (i % 4) + bit.val) / 8 = 4 * k + i % 4 := by omega
  have hbit' : (8 * (i % 4) + bit.val) % 8 = bit := by omega
  intro heq
  have hparity := congrArg (fun sum => sum.toBitVec.getLsbD (8 * (i % 4) + bit.val)) heq
  simp only [getLsbD_chksum _ _ hlane, hbyte, hbit'] at hparity
  have hword : i / 4 < (length.toNat + 3) / 4 := by omega
  refine parity_ne hword ?_ (fun k hk hother => ?_) hparity
  · have hi' : 4 * (i / 4) + i % 4 = i := by omega
    rw [hi', padded, padded, if_pos hi, if_pos hi]
    exact hbit
  · unfold padded
    split
    · next hk' =>
      by_contra hdiff
      have hsecond := hchanged hk' hdiff
      omega
    · rfl

/-- The bits of a byte stand in their own order. -/
theorem bitAt_refl (bytes : Region) (position : ℕ) :
    bitAt (Equiv.refl _) bytes position = (bytes (position / 8)).toBitVec.getLsbD (position % 8) :=
  rfl

/-- Bytes that differ within four consecutive ones differ within 32 consecutive bits. -/
theorem Burst.of_bytes {length : ℕ} {left right : Region} (hdiffer : ∃ i < length, left i ≠ right i)
    {first : ℕ} (hwithin : ∀ i < length, left i ≠ right i → first ≤ i ∧ i < first + 4) :
    Burst (Equiv.refl _) length left right := by
  refine ⟨hdiffer, 8 * first, fun position hposition hbit => ?_⟩
  have hbyte : left (position / 8) ≠ right (position / 8) := by
    intro hsame
    rw [bitAt_refl, bitAt_refl, hsame] at hbit
    exact hbit rfl
  have hwindow := hwithin (position / 8) (by omega) hbyte
  omega

/-- Two messages of one length that differ have different checksums if all bits that differ lie
within 32 consecutive positions, bit `j` of byte `i` at position `8 * i + j`; so in particular if
all bytes that differ lie within four consecutive ones. -/
theorem chksum_detects_bursts (left right : Region) (length : UInt16)
    (hdiffer : ∃ i < length.toNat, left i ≠ right i) :
    ((∃ start, ∀ i < length.toNat, ∀ j < 8,
        (left i).toBitVec.getLsbD j ≠ (right i).toBitVec.getLsbD j →
          start ≤ 8 * i + j ∧ 8 * i + j < start + 32) →
      chksum left length ≠ chksum right length) ∧
      ((∃ first, ∀ i < length.toNat, left i ≠ right i → first ≤ i ∧ i < first + 4) →
        chksum left length ≠ chksum right length) := by
  constructor
  · rintro ⟨start, hwithin⟩
    have hburst : Burst (Equiv.refl _) length.toNat left right := by
      refine ⟨hdiffer, start, fun position hposition hbit => ?_⟩
      have hwindow :=
        hwithin (position / 8) (by omega) (position % 8) (Nat.mod_lt _ (by decide)) hbit
      omega
    exact chksum_ne_of_burst hburst
  · rintro ⟨first, hwithin⟩
    exact chksum_ne_of_burst (Burst.of_bytes hdiffer hwithin)

/-- The last bit of one word and the first bit of the next, partial one are found changed. -/
theorem chksum_detects_straddling_burst :
    chksum (Region.ofBytes [1, 2, 3, 0x80, 1]) 5 ≠ chksum (Region.ofBytes [1, 2, 3, 0, 0]) 5 ∧
      chksum (Region.ofBytes [1, 2, 3, 4, 5]) 5 ≠ chksum (Region.ofBytes [1, 6, 7, 8, 9]) 5 :=
  ⟨(chksum_detects_bursts _ _ 5 ⟨3, by decide⟩).1 ⟨31, by decide⟩,
    (chksum_detects_bursts _ _ 5 ⟨1, by decide⟩).2 ⟨1, by decide⟩⟩

end VirtualFirmware.Messaging
