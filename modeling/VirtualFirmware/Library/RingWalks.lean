import Mathlib.Data.List.Nodup
import Mathlib.Data.Nat.ModEq
import VirtualFirmware.Library.Ring

/-!
# Loops over the indices of a ring

A loop steps through a ring until it comes to the tail, or back to where it started. It visits the
indices between head and tail; if the tail is no index of the ring it visits all of them once; and a
head that is no index is visited before the ring is entered at its beginning.
-/

namespace VirtualFirmware.Library.Ring

/-- The indices a loop visits from an index on, and the index it ends at: it stops at the tail, and
behind a step that leads back to the start. -/
inductive Walk (next : ℕ → ℕ) (tail start : ℕ) : ℕ → List ℕ → ℕ → Prop where
  | done : Walk next tail start tail [] tail
  | back {head : ℕ} (hhead : head ≠ tail) (hback : next head = start) :
      Walk next tail start head [head] start
  | step {head last : ℕ} {rest : List ℕ} (hhead : head ≠ tail) (hnext : next head ≠ start)
      (hrest : Walk next tail start (next head) rest last) :
        Walk next tail start head (head :: rest) last

/-- The indices that a loop from head to tail visits, unless neither of the two is in the ring. -/
def visited (length head tail : ℕ) : List ℕ :=
  if head = tail then []
  else if length ≤ head then head :: between length 0 tail
  else if length ≤ tail then (List.range length).map fun i => (head + i) % length
  else between length head tail

/-- Where such a loop ends. -/
def stop (length head tail : ℕ) : ℕ := if length ≤ tail then head else tail

variable {length head tail start : ℕ}

/-- Before the distance is reached, the tail is not. -/
theorem add_mod_ne_tail (hhead : head < length) {i : ℕ} (hi : i < distance length head tail) :
    (head + i) % length ≠ tail := by
  intro hmeet
  have hlt : i < length := Nat.lt_trans hi (Nat.mod_lt _ (by omega))
  have htail : tail < length := hmeet ▸ Nat.mod_lt _ (by omega)
  unfold distance at hi
  rcases Nat.lt_or_ge (head + i) length with hsmall | hlarge
  · rw [Nat.mod_eq_of_lt hsmall] at hmeet
    rw [show tail + length - head = i + length by omega, Nat.add_mod_right,
      Nat.mod_eq_of_lt hlt] at hi
    omega
  · rw [Nat.mod_eq_sub_mod hlarge, Nat.mod_eq_of_lt (by omega)] at hmeet
    rw [show tail + length - head = i by omega, Nat.mod_eq_of_lt hlt] at hi
    omega

/-- At the distance the tail is reached. -/
theorem add_distance_mod (hhead : head < length) (htail : tail < length) :
    (head + distance length head tail) % length = tail := by
  rw [distance, Nat.add_mod_mod, show head + (tail + length - head) = tail + length by omega,
    Nat.add_mod_right, Nat.mod_eq_of_lt htail]

/-- A walk from an index on, up to the first time the tail is met. -/
theorem walk_of_meets {last : ℕ} (hpos : 0 < length) (hmeet : (head + last) % length = tail)
    (hbefore : ∀ i < last, (head + i) % length ≠ tail)
    (haway : ∀ i < last, (head + (i + 1)) % length ≠ start) (steps : ℕ) {done : ℕ}
    (hlast : done + steps = last) :
    Walk (next length) tail start ((head + done) % length)
      ((List.range' done steps).map fun i => (head + i) % length) tail := by
  induction steps generalizing done with
  | zero =>
    obtain rfl : done = last := hlast
    rw [hmeet]
    exact .done
  | succ steps ih =>
    have hnext : next length ((head + done) % length) = (head + (done + 1)) % length :=
      next_mod hpos _
    rw [List.range'_succ, List.map_cons]
    refine .step (hbefore done (by omega)) ?_ ?_
    · rw [hnext]
      exact haway done (by omega)
    · rw [hnext]
      exact ih (by omega)

/-- From the head the walk visits the indices up to the tail, if it does not meet the start. -/
theorem walk_between (hhead : head < length) (htail : tail < length)
    (haway : ∀ i < distance length head tail, (head + (i + 1)) % length ≠ start) :
    Walk (next length) tail start head (between length head tail) tail := by
  have hwalk := walk_of_meets (by omega) (add_distance_mod hhead htail)
    (fun i hi => add_mod_ne_tail hhead hi) haway (distance length head tail) (Nat.zero_add _)
  rwa [Nat.add_zero, Nat.mod_eq_of_lt hhead, ← List.range_eq_range'] at hwalk

/-- A walk that never meets the tail goes around once. -/
theorem walk_around_from (hhead : head < length) (htail : length ≤ tail) (steps done : ℕ)
    (hlast : done + steps + 1 = length) :
    Walk (next length) tail head ((head + done) % length)
      ((List.range' done (steps + 1)).map fun i => (head + i) % length) head := by
  have hpos : 0 < length := by omega
  have hne (i : ℕ) : (head + i) % length ≠ tail := by
    have := Nat.mod_lt (head + i) hpos
    omega
  induction steps generalizing done with
  | zero =>
    refine .back (hne done) ?_
    rw [next_mod hpos, show head + done + 1 = head + length by omega, Nat.add_mod_right,
      Nat.mod_eq_of_lt hhead]
  | succ steps ih =>
    have hnext : next length ((head + done) % length) = (head + (done + 1)) % length :=
      next_mod hpos _
    rw [List.range'_succ, List.map_cons]
    refine .step (hne done) ?_ ?_
    · rw [hnext]
      intro hmeet
      rcases Nat.lt_or_ge (head + (done + 1)) length with hsmall | hlarge
      · rw [Nat.mod_eq_of_lt hsmall] at hmeet
        omega
      · rw [Nat.mod_eq_sub_mod hlarge, Nat.mod_eq_of_lt (by omega)] at hmeet
        omega
    · rw [hnext]
      exact ih (done + 1) (by omega)

/-- The walk that starts at the head, if the head or the tail is in the ring or the two are
equal. -/
theorem walk_visited (hpos : 0 < length) (h : head < length ∨ tail < length ∨ head = tail) :
    Walk (next length) tail head head (visited length head tail) (stop length head tail) := by
  unfold visited stop
  by_cases heq : head = tail
  · rw [if_pos heq, heq, ite_self]
    exact .done
  rw [if_neg heq]
  by_cases houtside : length ≤ head
  · have htail : tail < length := by omega
    have hzero : next length head = 0 := if_pos (by omega)
    rw [if_pos houtside, if_neg (by omega)]
    refine .step heq (by omega) ?_
    rw [hzero]
    refine walk_between hpos htail fun i _ => ?_
    have := Nat.mod_lt (0 + (i + 1)) hpos
    omega
  have hhead : head < length := Nat.lt_of_not_le houtside
  rw [if_neg houtside]
  by_cases htail : length ≤ tail
  · have hwalk := walk_around_from hhead htail (length - 1) 0 (by omega)
    rw [if_pos htail, if_pos htail]
    rwa [Nat.add_zero, Nat.mod_eq_of_lt hhead, Nat.sub_add_cancel hpos,
      ← List.range_eq_range'] at hwalk
  · rw [if_neg htail, if_neg htail]
    refine walk_between hhead (Nat.lt_of_not_le htail) fun i hi hmeet => ?_
    have hlt : distance length head tail < length := Nat.mod_lt _ hpos
    rcases Nat.lt_or_ge (head + (i + 1)) length with hsmall | hlarge
    · rw [Nat.mod_eq_of_lt hsmall] at hmeet
      omega
    · rw [Nat.mod_eq_sub_mod hlarge, Nat.mod_eq_of_lt (by omega)] at hmeet
      omega

/-- A head and a tail in the ring have the indices between them visited. -/
theorem visited_eq_between (hhead : head < length) (htail : tail < length) :
    visited length head tail = between length head tail := by
  unfold visited
  split
  · rename_i heq
    have hzero : distance length tail tail = 0 := by
      rw [distance, Nat.add_sub_cancel_left, Nat.mod_self]
    rw [heq, between, hzero]
    rfl
  · rw [if_neg (by omega), if_neg (by omega)]

/-- No index is visited twice. -/
theorem between_nodup (length head tail : ℕ) : (between length head tail).Nodup := by
  refine List.Nodup.map_on (fun i hi j hj heq => ?_) List.nodup_range
  rw [List.mem_range, distance] at hi hj
  rcases Nat.eq_zero_or_pos length with hzero | hpos
  · subst hzero
    simp only [Nat.mod_zero] at hi hj heq
    omega
  · have hcong : Nat.ModEq length (head + i) (head + j) := heq
    have hlt := Nat.mod_lt (tail + length - head) hpos
    exact Nat.ModEq.eq_of_lt_of_lt (Nat.ModEq.add_left_cancel' head hcong) (by omega) (by omega)

/-- From an index on the way to the tail the rest of the distance is left. -/
theorem distance_of_le {middle : ℕ} (hhead : head < length) (hmiddle : middle < length)
    (htail : tail < length) (h : distance length head middle ≤ distance length head tail) :
    distance length middle tail = distance length head tail - distance length head middle := by
  have hto := add_distance_mod hhead hmiddle
  have hend := add_distance_mod hhead htail
  have hlt : distance length head tail < length := Nat.mod_lt _ (by omega)
  generalize distance length head middle = first at hto h ⊢
  generalize distance length head tail = second at hend h hlt ⊢
  subst hto hend
  have hsum : (head + second) % length = ((head + first) % length + (second - first)) % length := by
    rw [Nat.mod_add_mod]
    congr 1
    omega
  rw [hsum, distance]
  generalize (head + first) % length = middle at hmiddle
  rcases Nat.lt_or_ge (middle + (second - first)) length with hsmall | hlarge
  · rw [Nat.mod_eq_of_lt hsmall,
      show middle + (second - first) + length - middle = second - first + length by omega,
      Nat.add_mod_right, Nat.mod_eq_of_lt (by omega)]
  · have hwrap : (middle + (second - first)) % length = middle + (second - first) - length := by
      rw [Nat.mod_eq_sub_mod hlarge, Nat.mod_eq_of_lt (by omega)]
    rw [hwrap, show middle + (second - first) - length + length - middle = second - first by omega,
      Nat.mod_eq_of_lt (by omega)]

/-- The way to the tail may be cut at any index on it. -/
theorem between_append {middle : ℕ} (hhead : head < length) (hmiddle : middle < length)
    (htail : tail < length) (h : distance length head middle ≤ distance length head tail) :
    between length head middle ++ between length middle tail = between length head tail := by
  have hto := add_distance_mod hhead hmiddle
  have hsplit : distance length head tail =
      distance length head middle + distance length middle tail := by
    rw [distance_of_le hhead hmiddle htail h]
    omega
  unfold between
  rw [hsplit, List.range_add, List.map_append, List.map_map]
  refine congrArg _ (List.map_congr_left fun i _ => ?_)
  rw [Function.comp_apply, ← Nat.add_assoc, ← Nat.mod_add_mod (head + _), hto]

/-- The head comes first on the way to another index. -/
theorem between_cons (hhead : head < length) (htail : tail < length) (hne : head ≠ tail) :
    between length head tail = head :: between length (next length head) tail := by
  have hpos : 0 < length := by omega
  have hnext : next length head = (head + 1) % length := next_eq_mod hhead
  have hlt : next length head < length := hnext ▸ Nat.mod_lt _ hpos
  have hone : distance length head (next length head) = 1 := by
    rw [distance, next]
    split
    · rw [show 0 + length - head = 1 by omega, Nat.mod_eq_of_lt (by omega)]
    · rw [show head + 1 + length - head = 1 + length by omega, Nat.add_mod_right,
        Nat.mod_eq_of_lt (by omega)]
  have hdistance : 1 ≤ distance length head tail := by
    rw [Nat.one_le_iff_ne_zero]
    intro hzero
    have hmeet := add_distance_mod hhead htail
    rw [hzero, Nat.add_zero, Nat.mod_eq_of_lt hhead] at hmeet
    exact hne hmeet
  rw [← between_append hhead hlt htail (by omega), between_of_distance_eq_one hhead hone]
  rfl

/-- The indices on the way are in the ring. -/
theorem lt_of_mem_between (hpos : 0 < length) {index : ℕ} (h : index ∈ between length head tail) :
    index < length := by
  obtain ⟨i, -, rfl⟩ := List.mem_map.mp h
  exact Nat.mod_lt _ hpos

/-- The tail is not on the way. -/
theorem tail_not_mem_between (hhead : head < length) : tail ∉ between length head tail := by
  intro h
  obtain ⟨i, hi, hmeet⟩ := List.mem_map.mp h
  exact add_mod_ne_tail hhead (List.mem_range.mp hi) hmeet

/-- The next index is in the ring. -/
theorem next_lt (hpos : 0 < length) (index : ℕ) : next length index < length := by
  rw [next]
  split <;> omega

/-- All indices, from the head on. -/
def around (length head : ℕ) : List ℕ := head :: between length (next length head) head

/-- No index comes twice on the way around. -/
theorem around_nodup (hpos : 0 < length) : (around length head).Nodup :=
  List.nodup_cons.mpr ⟨tail_not_mem_between (next_lt hpos head), between_nodup _ _ _⟩

end VirtualFirmware.Library.Ring
