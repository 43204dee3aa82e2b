import VirtualFirmware.Library.ByteStream

/-!
# What the next receive call sees

The bytes a receive call can return are determined by the schedule before the call is made.
A call that sees bytes returns as many of them as it asked for; a call that sees none has
failed. Nothing is lost: what is not taken stays for the next call.
-/

namespace VirtualFirmware.Library.Incoming

/-- How many bytes the next receive call can return; none if it fails. -/
def visible (s : Incoming) : ℕ :=
  match s.schedule with
  | [] => s.unread.length
  | .bytes more :: _ => min s.unread.length (max 1 (s.arrived + more))
  | .failure :: _ => 0

/-- The stream after a call that took nothing. -/
def pass (s : Incoming) : Incoming :=
  match s.schedule with
  | .failure :: rest => { s with schedule := rest }
  | schedule => { s with arrived := s.visible, schedule := schedule.tail }

/-- The stream without its first bytes. -/
def skip (s : Incoming) (count : ℕ) : Incoming :=
  { s with unread := s.unread.drop count, arrived := s.arrived - count }

/-- A call that took nothing leaves the unread bytes. -/
@[simp] theorem pass_unread (s : Incoming) : s.pass.unread = s.unread := by
  unfold pass
  split <;> rfl

/-- A call does not close the connection. -/
@[simp] theorem pass_closed (s : Incoming) : s.pass.closed = s.closed := by
  unfold pass
  split <;> rfl

/-- No call sees more than the unread bytes. -/
theorem visible_le (s : Incoming) : s.visible ≤ s.unread.length := by
  unfold visible
  split
  · exact Nat.le_refl _
  · exact Nat.min_le_left _ _
  · exact Nat.zero_le _

/-- A call that sees bytes finds the stream nonempty. -/
theorem unread_ne_nil {s : Incoming} (h : s.visible ≠ 0) : s.unread ≠ [] := by
  intro hnil
  have hle := s.visible_le
  rw [hnil, List.length_nil] at hle
  omega

/-- Bytes that were seen once are still there for the next call. -/
theorem visible_le_pass {s : Incoming} (h : s.visible ≠ 0) (hpass : s.pass.visible ≠ 0) :
    s.visible ≤ s.pass.visible := by
  have hle := s.visible_le
  obtain ⟨unread, arrived, schedule, closed⟩ := s
  match schedule with
  | [] => exact hle
  | [.bytes more] => exact hle
  | .bytes more :: .bytes _ :: rest =>
    simp only [visible, pass, List.tail_cons] at h hle ⊢
    omega
  | .bytes more :: .failure :: rest => exact absurd rfl hpass
  | .failure :: rest => exact absurd rfl h

/-- A call that sees bytes returns from what has arrived. -/
theorem recv_eq_recvArrived {s : Incoming} (mode : RecvMode) {count : ℕ} (hpos : 0 < count)
    (hvisible : s.visible ≠ 0) :
    ∃ arrived, min s.unread.length (max 1 arrived) = s.visible ∧
      s.pass = { s with arrived := s.visible, schedule := s.schedule.tail } ∧
      recv mode count s =
        recvArrived mode count arrived { s with schedule := s.schedule.tail } := by
  have hpositive := List.length_pos_of_ne_nil (unread_ne_nil hvisible)
  unfold recv
  rw [if_neg (Nat.ne_of_gt hpos)]
  obtain ⟨unread, arrived, schedule, closed⟩ := s
  cases schedule with
  | nil =>
    have hall : min unread.length (max 1 unread.length) = unread.length := by
      simp only at hpositive
      omega
    exact ⟨unread.length, hall, rfl, rfl⟩
  | cons next rest =>
    cases next with
    | bytes more => exact ⟨arrived + more, rfl, rfl, rfl⟩
    | failure => exact absurd rfl hvisible

/-- Peeking returns as many of the visible bytes as asked for, and takes nothing. -/
theorem recv_peek_visible {s : Incoming} {count : ℕ} (hpos : 0 < count) (hvisible : s.visible ≠ 0) :
    recv .peek count s =
      some ((((min count s.visible : ℕ) : Int), s.unread.take (min count s.visible)), s.pass) := by
  obtain ⟨arrived, hsame, hpass, hrecv⟩ := recv_eq_recvArrived .peek hpos hvisible
  have hlen : min (min count s.visible) s.unread.length = min count s.visible := by
    have hle := s.visible_le
    omega
  rw [hrecv, hpass]
  simp only [recvArrived, if_neg (unread_ne_nil hvisible), hsame, List.length_take, hlen]

/-- Taking returns as many of the visible bytes as asked for, and leaves the others. -/
theorem recv_take_visible {s : Incoming} {count : ℕ} (hpos : 0 < count) (hvisible : s.visible ≠ 0) :
    recv .take count s =
      some ((((min count s.visible : ℕ) : Int), s.unread.take (min count s.visible)),
        s.pass.skip (min count s.visible)) := by
  obtain ⟨arrived, hsame, hpass, hrecv⟩ := recv_eq_recvArrived .take hpos hvisible
  have hlen : min (min count s.visible) s.unread.length = min count s.visible := by
    have hle := s.visible_le
    omega
  rw [hrecv, hpass]
  simp only [recvArrived, if_neg (unread_ne_nil hvisible), hsame, List.length_take, hlen, skip]

/-- A call that sees nothing of a nonempty stream fails and takes nothing. -/
theorem recv_of_not_visible {s : Incoming} (mode : RecvMode) {count : ℕ} (hpos : 0 < count)
    (hne : s.unread ≠ []) (hvisible : s.visible = 0) :
    recv mode count s = some ((-1, []), s.pass) := by
  have hpositive := List.length_pos_of_ne_nil hne
  unfold recv
  rw [if_neg (Nat.ne_of_gt hpos)]
  obtain ⟨unread, arrived, schedule, closed⟩ := s
  cases schedule with
  | nil => exact absurd hvisible (Nat.ne_of_gt hpositive)
  | cons next rest =>
    cases next with
    | bytes more =>
      simp only [visible] at hvisible hpositive
      omega
    | failure => rfl

/-- A call on an empty stream waits for the open connection, or returns no bytes. -/
theorem recv_nil {s : Incoming} (mode : RecvMode) (count : ℕ) (hnil : s.unread = []) :
    (recv mode count s = none ∧ s.closed = false) ∨
      ∃ rc s', recv mode count s = some ((rc, []), s') ∧ rc ≤ 0 ∧ s'.unread = [] ∧
        s'.closed = s.closed := by
  unfold recv
  by_cases hzero : count = 0
  · exact .inr ⟨0, s, by rw [if_pos hzero], by decide, hnil, rfl⟩
  rw [if_neg hzero]
  obtain ⟨unread, arrived, schedule, closed⟩ := s
  obtain rfl : unread = [] := hnil
  match schedule, closed with
  | [], true => exact .inr ⟨0, _, rfl, by decide, rfl, rfl⟩
  | [], false => exact .inl ⟨rfl, rfl⟩
  | .bytes _ :: _, true => exact .inr ⟨0, _, rfl, by decide, rfl, rfl⟩
  | .bytes _ :: _, false => exact .inl ⟨rfl, rfl⟩
  | .failure :: _, _ => exact .inr ⟨-1, _, rfl, by decide, rfl, rfl⟩

/-- On a closed connection every call returns, and the stream does not grow. -/
theorem recv_closed {s : Incoming} (hclosed : s.closed = true) (mode : RecvMode) (count : ℕ) :
    ∃ rc bytes s', recv mode count s = some ((rc, bytes), s') ∧ s'.closed = true ∧
      s'.unread.length ≤ s.unread.length := by
  by_cases hnil : s.unread = []
  · obtain ⟨-, hopen⟩ | ⟨rc, s', hrecv, -, hunread, hclosed'⟩ := recv_nil mode count hnil
    · rw [hclosed] at hopen
      contradiction
    · exact ⟨rc, [], s', hrecv, hclosed'.trans hclosed, Nat.le_of_eq (by rw [hunread, hnil])⟩
  by_cases hzero : count = 0
  · exact ⟨0, [], s, by rw [recv, if_pos hzero], hclosed, Nat.le_refl _⟩
  have hpos := Nat.pos_of_ne_zero hzero
  by_cases hvisible : s.visible = 0
  · refine ⟨-1, [], s.pass, recv_of_not_visible mode hpos hnil hvisible, ?_, ?_⟩
    · rw [pass_closed, hclosed]
    · exact Nat.le_of_eq (by rw [pass_unread])
  cases mode with
  | peek =>
    refine ⟨_, _, s.pass, recv_peek_visible hpos hvisible, ?_, ?_⟩
    · rw [pass_closed, hclosed]
    · exact Nat.le_of_eq (by rw [pass_unread])
  | take =>
    refine ⟨_, _, _, recv_take_visible hpos hvisible, ?_, ?_⟩
    · rw [skip, pass_closed, hclosed]
    · rw [skip, pass_unread, List.length_drop]
      exact Nat.sub_le _ _

end VirtualFirmware.Library.Incoming
