import Mathlib.Data.Nat.Basic
import Mathlib.Tactic.Common

/-!
# Exclusive-or of a sequence

The exclusive-or of the first words of a sequence has as each of its bits the parity of that bit of
the words. A parity changes when exactly one of the terms does.
-/

namespace VirtualFirmware.Library

/-- Whether an odd number of the first `count` terms is true. -/
def parity : ℕ → (ℕ → Bool) → Bool
  | 0, _ => false
  | count + 1, f => f 0 ^^ parity count fun k => f (k + 1)

/-- The exclusive-or of the first `count` words. -/
def xorUpTo : ℕ → (ℕ → UInt32) → UInt32
  | 0, _ => 0
  | count + 1, f => f 0 ^^^ xorUpTo count fun k => f (k + 1)

/-- A parity depends only on the terms it counts. -/
theorem parity_congr {count : ℕ} {f g : ℕ → Bool} (h : ∀ k < count, f k = g k) :
    parity count f = parity count g := by
  induction count generalizing f g with
  | zero => rfl
  | succ count ih =>
    rw [parity, parity, h 0 (Nat.succ_pos _), ih fun k hk => h (k + 1) (Nat.succ_lt_succ hk)]

/-- A parity changes if exactly one term does. -/
theorem parity_ne {count only : ℕ} {f g : ℕ → Bool} (honly : only < count) (hdiff : f only ≠ g only)
    (hsame : ∀ k < count, k ≠ only → f k = g k) : parity count f ≠ parity count g := by
  induction count generalizing f g only with
  | zero => exact absurd honly (Nat.not_lt_zero _)
  | succ count ih =>
    rw [parity, parity]
    cases only with
    | zero =>
      have hrest : parity count (fun k => f (k + 1)) = parity count fun k => g (k + 1) :=
        parity_congr fun k hk => hsame (k + 1) (Nat.succ_lt_succ hk) (Nat.succ_ne_zero k)
      rw [hrest]
      exact fun heq => hdiff (Bool.xor_left_inj.mp heq)
    | succ only =>
      have hrest := ih (Nat.lt_of_succ_lt_succ honly) hdiff fun k hk hne =>
        hsame (k + 1) (Nat.succ_lt_succ hk) (by omega)
      rw [hsame 0 (Nat.succ_pos _) (Nat.succ_ne_zero only).symm]
      exact fun heq => hrest (Bool.xor_right_inj.mp heq)

/-- An exclusive-or depends only on the words it takes. -/
theorem xorUpTo_congr {count : ℕ} {f g : ℕ → UInt32} (h : ∀ k < count, f k = g k) :
    xorUpTo count f = xorUpTo count g := by
  induction count generalizing f g with
  | zero => rfl
  | succ count ih =>
    rw [xorUpTo, xorUpTo, h 0 (Nat.succ_pos _), ih fun k hk => h (k + 1) (Nat.succ_lt_succ hk)]

/-- One word more is taken at the end. -/
theorem xorUpTo_succ (count : ℕ) (f : ℕ → UInt32) :
    xorUpTo (count + 1) f = xorUpTo count f ^^^ f count := by
  induction count generalizing f with
  | zero => simp [xorUpTo]
  | succ count ih => rw [xorUpTo, ih, xorUpTo, UInt32.xor_assoc]

/-- Each bit of an exclusive-or is the parity of that bit. -/
theorem getLsbD_xorUpTo (count : ℕ) (f : ℕ → UInt32) (lane : ℕ) :
    (xorUpTo count f).toBitVec.getLsbD lane = parity count fun k =>
      (f k).toBitVec.getLsbD lane := by
  induction count generalizing f with
  | zero => simp [xorUpTo, parity]
  | succ count ih => rw [xorUpTo, parity, UInt32.toBitVec_xor, BitVec.getLsbD_xor, ih]

end VirtualFirmware.Library
