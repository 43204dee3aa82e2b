import VirtualFirmware.Messaging.Sending

/-!
# Partial sends

A send call may accept only a part of what it is given. `senddata` takes every positive result for
the whole, so it reports success for a frame of which a part was never accepted.
-/

namespace VirtualFirmware.Messaging

open Library

/-- A call fails if nothing of the header or of the payload is accepted. Otherwise it returns how
much was accepted of the payload, after what was accepted of the header. -/
theorem senddata_outcome (pad : Padding) (data : Region) (length : UInt16) (s : Outgoing) :
    if s.accepts headerSize = 0 ∨ s.next.accepts length.toNat =
      0 then (senddata pad data length s).1.rc = -1
    else (senddata pad data length s).1.rc = s.next.accepts length.toNat ∧
      (senddata pad data length s).2.accepted =
        s.accepted ++ (headerBytes pad length (chksum data length)).take (s.accepts headerSize) ++
          (data.load length.toNat).take (s.next.accepts length.toNat) := by
  have hrun := sending_runs pad data length s
  by_cases hlength : length = 0
  · have hnothing : s.next.accepts length.toNat = 0 := by
      subst hlength
      exact Nat.le_zero.mp (s.next.accepts_le 0)
    rw [sending_zero hlength] at hrun
    rw [if_pos (.inr hnothing), ← Option.some.inj hrun]
  -- the two send calls, and what the program makes of their results
  obtain ⟨rc, hsend, hrc⟩ := Outgoing.send_eq (headerBytes pad length (chksum data length)) s
  obtain ⟨rc', hsend', hrc'⟩ := Outgoing.send_eq (data.load length.toNat)
    ⟨s.accepted ++ (headerBytes pad length (chksum data length)).take (s.accepts headerSize),
      s.schedule.tail⟩
  rw [headerBytes_length] at hsend hrc
  rw [Region.load_length] at hsend' hrc'
  change rc' = s.next.accepts length.toNat ∨ rc' = -1 ∧ s.next.accepts length.toNat = 0 at hrc'
  rw [sending, if_neg fun hle => hlength (UInt16.le_zero_iff.mp hle)] at hrun
  simp only [Interaction.runWith, hsend, Option.bind_some] at hrun
  by_cases hheader : 0 < rc
  · rw [if_neg (by omega), if_neg (by omega)] at hrun
    simp only [Interaction.runWith, hsend', Option.bind_some] at hrun
    by_cases hpayload : 0 < rc'
    · rw [if_neg (by omega)] at hrun
      rw [if_neg (by omega), ← Option.some.inj hrun]
      exact ⟨hrc'.resolve_right (by omega), rfl⟩
    · rw [if_pos (by omega)]
      by_cases hzero : rc' = 0
      · rw [if_pos hzero] at hrun
        rw [← Option.some.inj hrun]
      · rw [if_neg hzero] at hrun
        rw [← Option.some.inj hrun]
        exact (hrc'.resolve_left (by omega)).1
  · rw [if_pos (by omega)]
    by_cases hzero : rc = 0
    · rw [if_pos hzero] at hrun
      rw [← Option.some.inj hrun]
    · rw [if_neg hzero, if_pos (by omega)] at hrun
      rw [← Option.some.inj hrun]

/-- Success is reported only if the header and all of the payload were accepted. -/
def SentWhole (pad : Padding) (data : Region) (length : UInt16) (s : Outgoing) : Prop :=
  0 ≤ (senddata pad data length s).1.rc →
    (senddata pad data length s).2.accepted =
      s.accepted ++ (headerBytes pad length (chksum data length) ++ data.load length.toNat)

/-- Of the two send calls one accepts nothing, or each accepts all it is given. -/
def WholeOrRefused (length : UInt16) (s : Outgoing) : Prop :=
  s.accepts headerSize = 0 ∨ s.next.accepts length.toNat = 0 ∨
    s.accepts headerSize = headerSize ∧ s.next.accepts length.toNat = length.toNat

/-- Success means a whole frame exactly if no send call that is not refused is partial. -/
theorem sentWhole_iff (pad : Padding) (data : Region) (length : UInt16) (s : Outgoing) :
    SentWhole pad data length s ↔ WholeOrRefused length s := by
  have houtcome := senddata_outcome pad data length s
  have hheader := s.accepts_le headerSize
  have hpayload := s.next.accepts_le length.toNat
  unfold SentWhole WholeOrRefused
  by_cases hrefused : s.accepts headerSize = 0 ∨ s.next.accepts length.toNat = 0
  · rw [if_pos hrefused] at houtcome
    rw [houtcome]
    exact iff_of_true (fun hrc => absurd hrc (by decide)) (or_assoc.mp (.inl hrefused))
  · rw [if_neg hrefused] at houtcome
    obtain ⟨hheader', hpayload'⟩ := not_or.mp hrefused
    rw [houtcome.1, houtcome.2, List.append_assoc, List.append_right_inj]
    constructor
    · intro hwhole
      have hlength := congrArg List.length (hwhole (Int.natCast_nonneg _))
      simp only [List.length_append, List.length_take, headerBytes_length,
        Region.load_length] at hlength
      exact .inr (.inr (by omega))
    · intro hwhole _
      have hboth := (hwhole.resolve_left hheader').resolve_left hpayload'
      rw [hboth.1, hboth.2, List.take_of_length_le (headerBytes_length _ _ _).le,
        List.take_of_length_le (Region.load_length _ _).le]

/-- A connection that accepts three bytes of the header and then all of the payload is taken for a
success. -/
theorem senddata_partial :
    ((senddata (0, 0) (fun _ => 7) 1 ⟨[], [.bytes 3]⟩).1.rc,
      (senddata (0, 0) (fun _ => 7) 1 ⟨[], [.bytes 3]⟩).2.accepted) =
        (1, [0, 1, 0, 7]) ∧
      ¬SentWhole (0, 0) (fun _ => 7) 1 ⟨[], [.bytes 3]⟩ := by
  refine ⟨by decide +kernel, fun hwhole => ?_⟩
  have haccepted := hwhole (by decide +kernel)
  exact absurd haccepted (by decide +kernel)

end VirtualFirmware.Messaging
