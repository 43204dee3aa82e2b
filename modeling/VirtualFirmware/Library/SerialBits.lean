import Mathlib.Data.Nat.Bitwise
import Mathlib.Tactic.NormNum

/-!
# Words on a serial line

A word goes over a line bit by bit, the highest first. The receiver shifts in what it sees.
-/

namespace VirtualFirmware.Library

/-- A bit of a word, counted from the highest. -/
def wordBit (word : UInt16) (i : ℕ) : Bool := word.toNat.testBit (15 - i)

/-- The bits that were seen, shifted in one after another. -/
def shiftIn (bits : List Bool) : UInt16 :=
  bits.foldl (fun data bit => data <<< 1 ||| if bit then 1 else 0) 0

/-- One more bit doubles the number and is added to it. -/
theorem shiftIn_concat (bits : List Bool) (bit : Bool) (h : (shiftIn bits).toNat < 2 ^ 15) :
    (shiftIn (bits ++ [bit])).toNat = 2 * (shiftIn bits).toNat + bit.toNat := by
  have hconcat : shiftIn (bits ++ [bit]) = shiftIn bits <<< 1 ||| if bit then 1 else 0 := by
    unfold shiftIn
    rw [List.foldl_append]
    rfl
  have hshifted : (shiftIn bits <<< 1).toNat = (shiftIn bits).toNat <<< 1 := by
    rw [UInt16.toNat_shiftLeft]
    change (shiftIn bits).toNat <<< 1 % 2 ^ 16 = _
    rw [Nat.shiftLeft_eq]
    omega
  have hbit : (if bit then 1 else 0 : UInt16).toNat = bit.toNat := by cases bit <;> rfl
  rw [hconcat, UInt16.toNat_or, hshifted, hbit, ← Nat.shiftLeft_add_eq_or_of_lt (Bool.toNat_lt bit),
    Nat.shiftLeft_eq]
  omega

/-- The first bits of a word make its upper part. -/
theorem shiftIn_wordBits_of_le (word : UInt16) {count : ℕ} (h : count ≤ 16) :
    (shiftIn ((List.range count).map (wordBit word))).toNat = word.toNat / 2 ^ (16 - count) := by
  have hword : word.toNat < 2 ^ 16 := word.toNat_lt
  induction count with
  | zero => exact (Nat.div_eq_of_lt hword).symm
  | succ count ih =>
    have hupper := ih (by omega)
    have hpow : 2 ^ (16 - count) = 2 ^ (15 - count) * 2 := by
      rw [← pow_succ]
      congr 1
      omega
    have hsmall : (shiftIn ((List.range count).map (wordBit word))).toNat < 2 ^ 15 := by
      rw [hupper, Nat.div_lt_iff_lt_mul (by positivity), ← pow_add]
      exact hword.trans_le (Nat.pow_le_pow_right (by omega) (by omega))
    have hbit : (wordBit word count).toNat = word.toNat / 2 ^ (15 - count) % 2 := by
      unfold wordBit
      rw [Nat.testBit_eq_decide_div_mod_eq]
      rcases Nat.mod_two_eq_zero_or_one (word.toNat / 2 ^ (15 - count)) with hlast | hlast <;>
          rw [hlast] <;> rfl
    rw [List.range_succ, List.map_append, List.map_singleton, shiftIn_concat _ _ hsmall, hupper,
      hbit, hpow, ← Nat.div_div_eq_div_mul, show 16 - (count + 1) = 15 - count by omega]
    exact Nat.div_add_mod _ 2

/-- All bits of a word make the word. -/
theorem shiftIn_wordBits (word : UInt16) : shiftIn ((List.range 16).map (wordBit word)) = word := by
  apply UInt16.toNat_inj.mp
  rw [shiftIn_wordBits_of_le word le_rfl]
  exact Nat.div_one _

/-- What is seen of each key is known if the keys are. -/
theorem map_snd_of_map_fst {K A B : Type} {pairs : List (A × B)} {keys : List K} {f : K → A}
    {g : K → B} (hkeys : pairs.map Prod.fst = keys.map f)
    (hpairs : ∀ pair ∈ pairs, ∀ key, pair.1 = f key → pair.2 = g key) :
    pairs.map Prod.snd = keys.map g := by
  induction pairs generalizing keys with
  | nil =>
    obtain rfl := List.map_eq_nil_iff.mp hkeys.symm
    rfl
  | cons pair pairs ih =>
    cases keys with
    | nil => cases hkeys
    | cons key keys =>
      obtain ⟨hkey, hrest⟩ := List.cons.inj hkeys
      obtain ⟨hpair, hpairs⟩ := List.forall_mem_cons.mp hpairs
      rw [List.map_cons, List.map_cons, hpair key hkey, ih hrest hpairs]

/-- A mask with one bit lets this bit through. -/
theorem and_flag {mask : UInt32} {i : ℕ} (hmask : mask.toBitVec = BitVec.twoPow 32 i)
    (lines : UInt32) :
    lines &&& mask = if lines.toBitVec.getLsbD i then mask else 0 := by
  apply UInt32.toBitVec_inj.mp
  rw [UInt32.toBitVec_and, hmask, BitVec.and_twoPow]
  split
  · exact hmask.symm
  · rfl

/-- The bits that are set in one of two states of the lines. -/
theorem or_and_mask (first second mask : UInt32) :
    (first ||| second) &&& mask = (first &&& mask) ||| (second &&& mask) := by
  apply UInt32.toBitVec_inj.mp
  ext i hi
  simp only [UInt32.toBitVec_and, UInt32.toBitVec_or, BitVec.getElem_and, BitVec.getElem_or]
  cases first.toBitVec[i] <;> cases second.toBitVec[i] <;> cases mask.toBitVec[i] <;> rfl

/-- The bits in which two states of the lines differ. -/
theorem xor_and_mask (first second mask : UInt32) :
    (first ^^^ second) &&& mask = (first &&& mask) ^^^ (second &&& mask) := by
  apply UInt32.toBitVec_inj.mp
  ext i hi
  simp only [UInt32.toBitVec_and, UInt32.toBitVec_xor, BitVec.getElem_and, BitVec.getElem_xor]
  cases first.toBitVec[i] <;> cases second.toBitVec[i] <;> cases mask.toBitVec[i] <;> rfl

/-- Two states of the lines agree under a mask. -/
theorem xor_and_mask_eq_zero {first second mask : UInt32} :
    (first ^^^ second) &&& mask = 0 ↔ first &&& mask = second &&& mask := by
  rw [xor_and_mask, UInt32.xor_eq_zero_iff]

/-- A line that is up differs from one that is down, and from no other. -/
theorem flag_ne_iff {mask : UInt32} {i : ℕ} (hmask : mask.toBitVec = BitVec.twoPow 32 i)
    {first second : UInt32} (hfirst : first &&& mask ≠ 0) : first &&& mask ≠ second &&& mask ↔
      second &&& mask = 0 := by
  rw [and_flag hmask first] at hfirst ⊢
  rw [and_flag hmask second]
  obtain ⟨hup, hset⟩ : first.toBitVec.getLsbD i = true ∧ ¬ mask = 0 := by simpa using hfirst
  cases second.toBitVec.getLsbD i with
  | false => simpa [hup] using hset
  | true => simpa [hup] using hset

end VirtualFirmware.Library
