import Mathlib.Data.List.Basic
import Mathlib.Tactic.Common
import Mathlib.Tactic.Ring

/-!
# Cutting a stream into segments with a common header

The first `h` elements of a stream are a header; what follows is cut into pieces of `m` elements,
and each piece is sent behind a copy of the header. A buffer that is filled from the stream holds
the segment that is not complete yet, however the stream arrives.
-/

namespace VirtualFirmware.Library.Segments

variable {A : Type} {h m : ℕ} {p b : List A}

/-- Segment `j` of the stream, which is shorter than the others if the stream ends in it. -/
def segment (h m : ℕ) (p : List A) (j : ℕ) : List A := p.take h ++ ((p.drop h).drop (m * j)).take m

/-- The number of segments that are complete. -/
def full (h m : ℕ) (p : List A) : ℕ := (p.length - h) / m

/-- What is in the buffer: the segment that is not complete. -/
def buffer (h m : ℕ) (p : List A) : List A := segment h m p (full h m p)

/-- A segment has the header and what is left of the payload, up to its own share. -/
theorem segment_length (j : ℕ) :
    (segment h m p j).length = min h p.length + min m (p.length - h - m * j) := by
  simp only [segment, List.length_append, List.length_take, List.length_drop]

/-- The buffer holds the header and the rest of the division. -/
theorem buffer_length (hm : 0 < m) :
    (buffer h m p).length = min h p.length + (p.length - h) % m := by
  have hrest : p.length - h - m * full h m p = (p.length - h) % m := by
    have := Nat.div_add_mod (p.length - h) m
    unfold full
    omega
  have hlt := Nat.mod_lt (p.length - h) hm
  rw [buffer, segment_length, hrest, Nat.min_eq_right hlt.le]

/-- The buffer is never full. -/
theorem buffer_length_lt (hm : 0 < m) : (buffer h m p).length < h + m := by
  have hlt := Nat.mod_lt (p.length - h) hm
  rw [buffer_length hm]
  omega

/-- A stream that has not filled the header is in the buffer as it is. -/
theorem buffer_of_length_lt (hshort : p.length < h) : buffer h m p = p := by
  rw [buffer, segment, List.take_of_length_le hshort.le, List.drop_of_length_le hshort.le]
  simp

/-- Nothing is complete before the header. -/
theorem full_of_length_le (hshort : p.length ≤ h) : full h m p = 0 := by
  rw [full, Nat.sub_eq_zero_of_le hshort, Nat.zero_div]

/-- The buffer is empty at first. -/
@[simp] theorem buffer_nil : buffer h m ([] : List A) = [] := by
  simp [buffer, segment]

/-- The rest of the current segment does not change it. -/
theorem drop_drop_append {k : ℕ} (hk : m * k ≤ p.length - h) (hhead : h ≤ p.length) :
    ((p ++ b).drop h).drop (m * k) = (p.drop h).drop (m * k) ++ b := by
  rw [List.drop_append_of_le_length hhead,
    List.drop_append_of_le_length (by rw [List.length_drop]; exact hk)]

/-- What is added to the stream is added to the buffer, as far as it has room. -/
theorem segment_append (hm : 0 < m) (hroom : (buffer h m p).length + b.length ≤ h + m) :
    segment h m (p ++ b) (full h m p) = buffer h m p ++ b := by
  rw [buffer_length hm] at hroom
  rcases Nat.lt_or_ge p.length h with hshort | hlong
  · have hfull := full_of_length_le (m := m) hshort.le
    rw [buffer_of_length_lt hshort, segment, hfull, Nat.mul_zero, List.drop_zero]
    rw [List.take_of_length_le (i := m), List.take_append_drop]
    rw [List.length_drop, List.length_append]
    rw [Nat.sub_eq_zero_of_le hshort.le, Nat.zero_mod] at hroom
    omega
  · have hk : m * full h m p ≤ p.length - h := Nat.mul_div_le _ _
    have hrest : p.length - h - m * full h m p = (p.length - h) % m := by
      have := Nat.div_add_mod (p.length - h) m
      unfold full
      omega
    rw [buffer, segment, segment, drop_drop_append hk hlong, List.take_append_of_le_length hlong,
      List.take_of_length_le (i := m), List.take_of_length_le (i := m), List.append_assoc]
    · rw [List.length_drop, List.length_drop, hrest]
      exact (Nat.mod_lt _ hm).le
    · rw [List.length_append, List.length_drop, List.length_drop, hrest]
      omega

/-- A segment that is complete stays as it is. -/
theorem segment_append_of_lt {j : ℕ} (hj : j < full h m p) :
    segment h m (p ++ b) j = segment h m p j := by
  have hm : 0 < m := Nat.pos_of_ne_zero fun hzero => by simp [full, hzero] at hj
  have hend : m * (j + 1) ≤ p.length - h := by
    calc m * (j + 1) ≤ m * full h m p := Nat.mul_le_mul_left m hj
      _ ≤ p.length - h := Nat.mul_div_le _ _
  rw [Nat.mul_add, Nat.mul_one] at hend
  have hhead : h ≤ p.length := by omega
  rw [segment, segment, drop_drop_append (by omega) hhead, List.take_append_of_le_length hhead,
    List.take_append_of_le_length]
  rw [List.length_drop, List.length_drop]
  omega

/-- The number of complete segments when the buffer still has room. -/
theorem full_append_of_lt (hm : 0 < m) (hroom : (buffer h m p).length + b.length < h + m) :
    full h m (p ++ b) = full h m p := by
  have hdivision := Nat.div_add_mod (p.length - h) m
  rw [buffer_length hm] at hroom
  unfold full
  rw [List.length_append]
  rcases Nat.lt_or_ge p.length h with hshort | hlong
  · rw [Nat.sub_eq_zero_of_le hshort.le, Nat.zero_mod] at hroom
    rw [Nat.sub_eq_zero_of_le hshort.le, Nat.zero_div, Nat.div_eq_of_lt (by omega)]
  · rw [show p.length + b.length - h =
      (p.length - h) % m + b.length + m * ((p.length - h) / m) by omega,
      Nat.add_mul_div_left _ _ hm, Nat.div_eq_of_lt (by omega), Nat.zero_add]

/-- The length of the stream when the buffer has been filled. -/
theorem length_append_of_eq (hm : 0 < m) (hroom : (buffer h m p).length + b.length = h + m) :
    (p ++ b).length = h + m * (full h m p + 1) := by
  have hdivision := Nat.div_add_mod (p.length - h) m
  rw [buffer_length hm] at hroom
  rw [List.length_append, Nat.mul_add, full]
  rcases Nat.lt_or_ge p.length h with hshort | hlong
  · rw [Nat.sub_eq_zero_of_le hshort.le, Nat.zero_mod] at hroom
    rw [Nat.sub_eq_zero_of_le hshort.le, Nat.zero_div]
    omega
  · omega

/-- The number of complete segments when the buffer has been filled. -/
theorem full_append_of_eq (hm : 0 < m) (hroom : (buffer h m p).length + b.length = h + m) :
    full h m (p ++ b) = full h m p + 1 := by
  rw [full, length_append_of_eq hm hroom, Nat.add_sub_cancel_left, Nat.mul_div_cancel_left _ hm]

/-- The buffer grows while it has room. -/
theorem buffer_append_of_lt (hm : 0 < m) (hroom : (buffer h m p).length + b.length < h + m) :
    buffer h m (p ++ b) = buffer h m p ++ b := by
  rw [buffer, full_append_of_lt hm hroom, segment_append hm hroom.le]

/-- Behind a complete segment the buffer holds the header. -/
theorem buffer_append_of_eq (hm : 0 < m) (hroom : (buffer h m p).length + b.length = h + m) :
    buffer h m (p ++ b) = (p ++ b).take h := by
  rw [buffer, full_append_of_eq hm hroom, segment, List.drop_drop, List.drop_of_length_le,
    List.take_nil, List.append_nil]
  exact (length_append_of_eq hm hroom).le

/-- The first pieces of a stream are its front. -/
theorem flatMap_pieces (m count : ℕ) (stream : List A) :
    ((List.range count).flatMap fun j => (stream.drop (m * j)).take m) =
      stream.take (m * count) := by
  induction count with
  | zero => simp
  | succ count ih =>
    rw [List.range_succ, List.flatMap_append, ih, List.flatMap_singleton, Nat.mul_succ,
      List.take_add]

/-- The pieces of all segments are what follows the header. -/
theorem flatMap_payloads (hm : 0 < m) :
    ((List.range (full h m p + 1)).flatMap fun j => ((p.drop h).drop (m * j)).take m) =
      p.drop h := by
  rw [flatMap_pieces, List.take_of_length_le]
  rw [List.length_drop, full]
  exact (Nat.lt_mul_div_succ _ hm).le

end VirtualFirmware.Library.Segments
