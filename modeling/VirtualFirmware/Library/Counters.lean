import Mathlib.Data.Nat.ModEq
import Mathlib.Tactic.Common

/-!
# Counters of one and of two words

A counter wraps around. One of two words has its carry found by comparing the low word with what it
was before.
-/

namespace VirtualFirmware.Library

/-- The value of a counter of two words. -/
def wide (high low : UInt32) : ℕ := high.toNat * 2 ^ 32 + low.toNat

/-- A counter of one word adds modulo its range. -/
theorem toNat_add_modEq (value added : UInt32) :
    (value + added).toNat ≡ value.toNat + added.toNat [MOD 2 ^ 32] := by
  rw [UInt32.toNat_add]
  exact Nat.mod_modEq _ _

/-- Addition to a counter of two words: there is a carry if the low word became less. -/
theorem wide_add_modEq (high low added : UInt32) :
    wide (if low + added < low then high + 1 else high) (low + added) ≡
      wide high low + added.toNat [MOD 2 ^ 64] := by
  have hone : (1 : UInt32).toNat = 1 := rfl
  have hhigh := high.toNat_lt
  have hlow := low.toNat_lt
  have hadded := added.toNat_lt
  have hsum : (low + added).toNat = (low.toNat + added.toNat) % 2 ^ 32 := UInt32.toNat_add _ _
  unfold wide Nat.ModEq
  split
  · rename_i hcarry
    rw [UInt32.lt_iff_toNat_lt, hsum] at hcarry
    rw [hsum, UInt32.toNat_add, hone]
    omega
  · rename_i hnone
    rw [UInt32.lt_iff_toNat_lt, hsum] at hnone
    rw [hsum]
    omega

end VirtualFirmware.Library
