import Mathlib.Tactic.Common

/-!
# Words of flags

Each flag is one bit of a word. Setting or clearing a flag decides about that flag and leaves the
others as they are.
-/

namespace VirtualFirmware.Library

/-- The flag that is one bit. -/
def bitFlag (bit : ℕ) : UInt16 := ⟨BitVec.twoPow 16 bit⟩

/-- The word has the flag. -/
def HasFlag (flags flag : UInt16) : Prop := flags &&& flag ≠ 0

instance (flags flag : UInt16) : Decidable (HasFlag flags flag) :=
  inferInstanceAs (Decidable (_ ≠ _))

/-- A flag has its own bit set and no other. -/
theorem getLsbD_bitFlag {bit : ℕ} (hbit : bit < 16) (i : ℕ) :
    (bitFlag bit).toBitVec.getLsbD i = decide (bit = i) := by
  rw [bitFlag, BitVec.getLsbD_twoPow, decide_eq_true hbit, Bool.true_and]

/-- A word has a flag if its bit is set. -/
theorem hasFlag_iff {bit : ℕ} (hbit : bit < 16) (flags : UInt16) :
    HasFlag flags (bitFlag bit) ↔ flags.toBitVec.getLsbD bit = true := by
  constructor
  · intro h
    by_contra hclear
    refine h (UInt16.toBitVec_inj.mp (BitVec.eq_of_getLsbD_eq fun i _ => ?_))
    rw [UInt16.toBitVec_and, BitVec.getLsbD_and, getLsbD_bitFlag hbit]
    by_cases hi : bit = i
    · subst hi
      simpa using hclear
    · simp [hi]
  · intro hset hzero
    have hbits := congrArg (fun word => word.toBitVec.getLsbD bit) hzero
    simp [UInt16.toBitVec_and, BitVec.getLsbD_and, getLsbD_bitFlag hbit, hset] at hbits

section Bits

variable {bit other : ℕ} (hbit : bit < 16) (hother : other < 16) (flags : UInt16)

include hbit hother

/-- Setting a flag sets this one only. -/
theorem hasFlag_set : HasFlag (flags ||| bitFlag other) (bitFlag bit) ↔
      HasFlag flags (bitFlag bit) ∨ other = bit := by
  rw [hasFlag_iff hbit, hasFlag_iff hbit, UInt16.toBitVec_or, BitVec.getLsbD_or,
    getLsbD_bitFlag hother, Bool.or_eq_true, decide_eq_true_iff]

/-- Clearing a flag clears this one only. -/
theorem hasFlag_clear :
    HasFlag (flags &&& ~~~ bitFlag other) (bitFlag bit) ↔ HasFlag flags (bitFlag bit) ∧
      other ≠ bit := by
  rw [hasFlag_iff hbit, hasFlag_iff hbit, UInt16.toBitVec_and, UInt16.toBitVec_not,
    BitVec.getLsbD_and, BitVec.getLsbD_not, getLsbD_bitFlag hother, Bool.and_eq_true,
    decide_eq_true hbit, Bool.true_and,
    Bool.not_eq_true', decide_eq_false_iff_not]

omit hother in
/-- Setting a flag that is set changes nothing. -/
theorem set_eq_self_iff : flags ||| bitFlag bit = flags ↔ HasFlag flags (bitFlag bit) := by
  constructor
  · intro hsame
    rw [← hsame]
    exact (hasFlag_set hbit hbit flags).mpr (.inr rfl)
  · intro hset
    refine UInt16.toBitVec_inj.mp (BitVec.eq_of_getLsbD_eq fun i _ => ?_)
    rw [UInt16.toBitVec_or, BitVec.getLsbD_or, getLsbD_bitFlag hbit]
    by_cases hi : bit = i
    · subst hi
      rw [(hasFlag_iff hbit flags).mp hset, Bool.true_or]
    · rw [decide_eq_false hi, Bool.or_false]

end Bits

end VirtualFirmware.Library
