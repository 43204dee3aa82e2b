import Mathlib.Data.List.Basic
import Mathlib.Tactic.Common

/-!
# Indices of a ring

Indices run from zero to the ring's length and then start again. The distance from a head to
a tail counts the indices that lie between them; a head equal to the tail means none.
-/

namespace VirtualFirmware.Library.Ring

/-- The index after the given one, with the wrap test of a counter that is incremented first. -/
def next (length index : ℕ) : ℕ := if index + 1 ≥ length then 0 else index + 1

/-- How many indices lie from the head up to the tail. -/
def distance (length head tail : ℕ) : ℕ := (tail + length - head) % length

/-- The indices from the head up to the tail, in order, the tail not included. -/
def between (length head tail : ℕ) : List ℕ :=
  (List.range (distance length head tail)).map fun i => (head + i) % length

variable {length head tail index : ℕ}

/-- Stepping is addition modulo the length. -/
theorem next_eq_mod (h : index < length) : next length index = (index + 1) % length := by
  unfold next
  split
  · rw [show index + 1 = length by omega, Nat.mod_self]
  · rw [Nat.mod_eq_of_lt (by omega)]

/-- After any number of steps from zero the index is that number modulo the length. -/
theorem next_mod (hpos : 0 < length) (steps : ℕ) :
    next length (steps % length) = (steps + 1) % length := by
  rw [next_eq_mod (Nat.mod_lt steps hpos), Nat.mod_add_mod]

/-- The list of indices is as long as the distance. -/
@[simp] theorem between_length (length head tail : ℕ) :
    (between length head tail).length = distance length head tail := by
  simp [between]

/-- At distance one there is only the head. -/
theorem between_of_distance_eq_one (hhead : head < length) (h : distance length head tail = 1) :
    between length head tail = [head] := by
  simp [between, h, Nat.mod_eq_of_lt hhead]

/-- At distance one the tail comes right after the head. -/
theorem next_of_distance_eq_one (hhead : head < length) (htail : tail < length)
    (h : distance length head tail = 1) : next length head = tail := by
  unfold distance at h
  rcases Nat.lt_or_ge tail head with hlt | hge
  · rw [Nat.mod_eq_of_lt (by omega)] at h
    rw [next, if_pos (by omega)]
    omega
  · rw [show tail + length - head = tail - head + length by omega, Nat.add_mod_right,
      Nat.mod_eq_of_lt (by omega)] at h
    rw [next, if_neg (by omega)]
    omega

end VirtualFirmware.Library.Ring
