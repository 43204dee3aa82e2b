import VirtualFirmware.Library.Regions

/-!
# Sums of big-endian half words

The checksum of the Internet protocols adds up half words and folds the carries back, so it is a
residue modulo 65535. A half word that is replaced changes the sum by the difference.
-/

namespace VirtualFirmware.Library.OnesComplement

/-- The sum of the half words in the first bytes; a last byte without a partner is a high one. -/
def wordSum (buf : Region) : (count : ℕ) → ℕ
  | 0 => 0
  | i + 1 => wordSum buf i + if i % 2 = 1 then (buf i).toNat else (buf i).toNat * 256

/-- Each byte adds less than a half word. -/
theorem wordSum_le (buf : Region) (count : ℕ) : wordSum buf count ≤ 65280 * count := by
  induction count with
  | zero => exact Nat.le_refl 0
  | succ count ih =>
    have hbyte := (buf count).toNat_lt
    rw [wordSum]
    split <;> omega

/-- The sum depends on the bytes that are added. -/
theorem wordSum_congr {left right : Region} {count : ℕ} (h : ∀ i < count, left i = right i) :
    wordSum left count = wordSum right count := by
  induction count with
  | zero => rfl
  | succ count ih =>
    rw [wordSum, wordSum, ih fun i hi => h i (Nat.lt_succ_of_lt hi),
      h count (Nat.lt_succ_self count)]

/-- The half word at an offset. -/
def wordAt (buf : Region) (offset : ℕ) : ℕ := (buf offset).toNat * 256 + (buf (offset + 1)).toNat

/-- A half word at an even offset is added as a whole. -/
theorem wordSum_add_two (buf : Region) {offset : ℕ} (heven : offset % 2 = 0) :
    wordSum buf (offset + 2) = wordSum buf offset + wordAt buf offset := by
  rw [wordSum, wordSum, if_neg (by omega), if_pos (by omega), wordAt, Nat.add_assoc]

/-- Bytes that change outside of a half word at an even offset change the sum by its difference. -/
theorem wordSum_replace {left right : Region} {offset count : ℕ} (heven : offset % 2 = 0)
    (hinside : offset + 2 ≤ count)
    (h : ∀ i < count, i ≠ offset → i ≠ offset + 1 → left i = right i) :
    wordSum left count + wordAt right offset = wordSum right count + wordAt left offset := by
  induction count, hinside using Nat.le_induction with
  | base =>
    have hbefore : wordSum left offset = wordSum right offset :=
      wordSum_congr fun i hi => h i (by omega) (by omega) (by omega)
    rw [wordSum_add_two left heven, wordSum_add_two right heven, hbefore]
    omega
  | succ count hcount ih =>
    have hlast : left count = right count := h count (by omega) (by omega) (by omega)
    have hsum := ih fun i hi => h i (by omega)
    rw [wordSum, wordSum, hlast]
    omega

/-- Folding a carry keeps the residue. -/
theorem fold_mod (sum : ℕ) : (sum % 65536 + sum / 65536) % 65535 = sum % 65535 := by omega

end VirtualFirmware.Library.OnesComplement
