import VirtualFirmware.Library.Calls
import VirtualFirmware.Messaging.Checksum

/-!
# The send calls of `senddata`

`senddata` hands the header and then the payload to the socket, each with one call whose result it
compares with zero only. Its length parameter is a `uint16_t`, so a caller's `int` is reduced before
the function sees it. The header is handed over as a whole structure, with its padding.
-/

namespace VirtualFirmware.Messaging

open Library

/-- A program that hands bytes to `send` and goes on with its result. -/
abbrev Sending := Interaction (List UInt8) fun _ => Int

/-- `senddata` as the program of its send calls. -/
def sending (pad : Padding) (data : Region) (length : UInt16) : Sending Sent :=
  if length ≤ 0 then .pure { rc := -1, errno := some .einval }
  else .perform (headerBytes pad length (chksum data length)) fun rc =>
    if rc = 0 then .pure { rc := -1, errno := some .ecanceled }
    else if rc < 0 then .pure { rc := -1 }
    else .perform (data.load length.toNat) fun rc =>
      if rc = 0 then .pure { rc := -1, errno := some .ecanceled }
      else .pure { rc := rc }

/-- On a connection, the program does what `senddata` does. -/
theorem sending_runs (pad : Padding) (data : Region) (length : UInt16) (s : Outgoing) :
    (sending pad data length).runWith (fun bytes s => some (Outgoing.send bytes s)) s =
      some (senddata pad data length s) := by
  unfold sending senddata
  by_cases hlength : length ≤ 0
  · simp only [if_pos hlength]
    rfl
  simp only [if_neg hlength, Interaction.runWith, Option.bind_some, bind, StateT.bind, pure]
  obtain ⟨rc, s'⟩ := Outgoing.send (headerBytes pad length (chksum data length)) s
  dsimp only
  by_cases hzero : rc = 0
  · simp only [if_pos hzero]
    rfl
  by_cases hneg : rc < 0
  · simp only [if_neg hzero, if_pos hneg]
    rfl
  simp only [if_neg hzero, if_neg hneg, Interaction.runWith, Option.bind_some, StateT.bind, bind]
  obtain ⟨rc', s''⟩ := Outgoing.send (data.load length.toNat) s'
  by_cases hzero' : rc' = 0
  · simp only [if_pos hzero']
    rfl
  · simp only [if_neg hzero', ite_self]
    rfl

section Lengths

variable {pad : Padding} {data : Region} {length : UInt16}

/-- Nothing is sent for the length `0`. -/
theorem sending_zero (h : length = 0) :
    sending pad data length = .pure { rc := -1, errno := some .einval } := by
  subst h
  rfl

/-- The header of a message of this length is handed over, and if it was accepted its payload. -/
def Transmits (data : Region) (length : ℕ) (calls : List (Sigma fun _ : List UInt8 => Int)) :
    Prop :=
  ∃ header rc, header.length = headerSize ∧ (headerLength header).toNat = length ∧
    (rc ≤ 0 ∧ calls = [⟨header, rc⟩] ∨ 0 < rc ∧
      ∃ rc', calls = [⟨header, rc⟩, ⟨data.load length, rc'⟩])

/-- For any other length the message is handed over. -/
theorem sending_transmits (h : length ≠ 0) :
    (sending pad data length).EveryRun fun calls _ => Transmits data length.toNat calls := by
  have hlength : ¬length ≤ 0 := fun hle => h (UInt16.le_zero_iff.mp hle)
  rw [sending, if_neg hlength]
  intro rc
  dsimp only
  have hheader := headerBytes_length pad length (chksum data length)
  have hcarries : (headerLength (headerBytes pad length (chksum data length))).toNat =
      length.toNat := by
    rw [headerLength_headerBytes]
  by_cases hpos : 0 < rc
  · rw [if_neg (by omega), if_neg (by omega)]
    intro rc'
    have hboth : Transmits data length.toNat
        [⟨headerBytes pad length (chksum data length), rc⟩, ⟨data.load length.toNat, rc'⟩] :=
      ⟨_, rc, hheader, hcarries, .inr ⟨hpos, rc', rfl⟩⟩
    dsimp only
    split
    · exact hboth
    · exact hboth
  · have hfailed :
        Transmits data length.toNat [⟨headerBytes pad length (chksum data length), rc⟩] :=
      ⟨_, rc, hheader, hcarries, .inl ⟨by omega, rfl⟩⟩
    split
    · exact hfailed
    · rw [if_pos (by omega)]
      exact hfailed

/-- `senddata` called with an `int` as its length, which is converted to a `uint16_t`. -/
def sendingInt (pad : Padding) (data : Region) (n : Int) : Sending Sent :=
  sending pad data (UInt16.ofInt n)

/-- A length from `1` to `65535` is transmitted, and for every other one the call fails without
sending. -/
def LengthRespected (pad : Padding) (data : Region) (n : Int) : Prop :=
  (sendingInt pad data n).EveryRun fun calls sent =>
    if 1 ≤ n ∧ n ≤ 65535 then Transmits data n.toNat calls else calls = [] ∧ sent.rc = -1

/-- The conversion keeps the remainder. -/
theorem toNat_ofInt (n : Int) : ((UInt16.ofInt n).toNat : Int) = n % 65536 := by
  have hlt := Int.emod_lt_of_pos n (by decide : (0 : Int) < 65536)
  have hnonneg := Int.emod_nonneg n (by decide : (65536 : Int) ≠ 0)
  simp [UInt16.ofInt]
  omega

/-- Lengths are respected exactly if the conversion keeps them or makes them `0`. -/
theorem lengthRespected_iff (pad : Padding) (data : Region) (n : Int) :
    LengthRespected pad data n ↔ 1 ≤ n ∧ n ≤ 65535 ∨ (65536 : Int) ∣ n := by
  have hconverted := toNat_ofInt n
  unfold LengthRespected sendingInt
  by_cases hrange : 1 ≤ n ∧ n ≤ 65535
  · have hlength : (UInt16.ofInt n).toNat = n.toNat := by omega
    have hne : UInt16.ofInt n ≠ 0 := by
      intro hzero
      rw [hzero] at hlength
      simp at hlength
      omega
    simp only [hrange, and_self, if_true, true_or, iff_true, ← hlength]
    exact sending_transmits hne
  simp only [hrange, if_false, false_or]
  by_cases hzero : UInt16.ofInt n = 0
  · rw [sending_zero hzero]
    rw [hzero] at hconverted
    exact iff_of_true ⟨rfl, rfl⟩ (Int.dvd_of_emod_eq_zero hconverted.symm)
  · refine iff_of_false (fun hruns => ?_) fun hdvd => hzero ?_
    · have hlength : ¬UInt16.ofInt n ≤ 0 := fun hle => hzero (UInt16.le_zero_iff.mp hle)
      rw [sending, if_neg hlength] at hruns
      exact absurd (hruns 0).1 (List.cons_ne_nil _ _)
    · rw [Int.emod_eq_zero_of_dvd hdvd] at hconverted
      exact UInt16.toNat_inj.mp (by exact_mod_cast hconverted)

/-- A length of `65537` is sent as a message of one byte, and `-1` as one of `65535` bytes. -/
theorem lengths_wrap :
    ((senddata (0, 0) (fun _ => 7) (UInt16.ofInt 65537) Outgoing.fresh).1.rc = 1 ∧
      ¬LengthRespected (0, 0) (fun _ => 7) 65537) ∧
    (UInt16.ofInt (-1) = 65535 ∧ ¬LengthRespected (0, 0) (fun _ => 7) (-1)) := by
  refine ⟨⟨by decide +kernel, fun hruns => ?_⟩, by decide, fun hruns => ?_⟩
  · exact absurd (hruns 0).1 (List.cons_ne_nil _ _)
  · exact absurd (hruns 0).1 (List.cons_ne_nil _ _)

end Lengths

section Stack

/-- All bytes a program hands over, when its calls return these results and then fail. -/
def handed {A : Type} : List Int → Sending A → List UInt8
  | _, .pure _ => []
  | results, .perform bytes next => bytes ++ handed results.tail (next (results.headD (-1)))

/-- `senddata` hands over the header, and the payload if the header was accepted. -/
theorem handed_sending {length : UInt16} (h : length ≠ 0) (pad : Padding) (data : Region)
    (results : List Int) :
    handed results (sending pad data length) = headerBytes pad length (chksum data length) ++
      if 0 < results.headD (-1) then data.load length.toNat else [] := by
  have hlength : ¬length ≤ 0 := fun hle => h (UInt16.le_zero_iff.mp hle)
  rw [sending, if_neg hlength, handed]
  congr 1
  by_cases hpos : 0 < results.headD (-1)
  · rw [if_neg (by omega), if_neg (by omega), if_pos hpos, handed]
    split
    · exact List.append_nil _
    · exact List.append_nil _
  · rw [if_neg hpos]
    split
    · rfl
    · rw [if_pos (by omega)]
      rfl

/-- Headers that differ only in their padding are the same exactly if it is. -/
theorem headerBytes_pad_inj {left right : Padding} {length : UInt16} {sum : UInt32} :
    headerBytes left length sum = headerBytes right length sum ↔ left = right := by
  simp [headerBytes, Prod.ext_iff]

/-- What is handed over depends only on the message exactly if the stack held the same padding, or
if nothing is sent. -/
theorem handed_eq_iff {left right : Region} {length : UInt16}
    (h : left.load length.toNat = right.load length.toNat) (pad pad' : Padding)
    (results : List Int) :
    handed results (sending pad left length) = handed results (sending pad' right length) ↔
      pad = pad' ∨ length = 0 := by
  by_cases hzero : length = 0
  · rw [sending_zero hzero, sending_zero hzero]
    exact iff_of_true rfl (.inr hzero)
  · rw [handed_sending hzero, handed_sending hzero, h, chksum_congr (Region.load_eq_load_iff.mp h),
      List.append_left_inj, headerBytes_pad_inj]
    exact (or_iff_left hzero).symm

/-- The theorem at a message of one byte in two buffers. -/
theorem handed_eq_single :
    (Region.load (fun _ => 7) 1 = Region.load (Region.ofBytes [7]) 1) ∧
      (handed [8, 1] (sending (0, 0) (fun _ => 7) 1) =
        handed [8, 1] (sending (0, 0) (Region.ofBytes [7]) 1) ↔ ((0, 0) : Padding) = (0, 0) ∨
          (1 : UInt16) = 0) :=
  ⟨by decide, handed_eq_iff (by decide) (0, 0) (0, 0) [8, 1]⟩

/-- What the stack held is handed over between the fields of the header. -/
theorem handed_leaks_stack :
    handed [8, 1] (sending (0xde, 0xad) (fun _ => 7) 1) = [0, 1, 0xde, 0xad, 0, 0, 0, 7, 7] ∧
      handed [8, 1] (sending (0, 0) (fun _ => 7) 1) = [0, 1, 0, 0, 0, 0, 0, 7, 7] ∧
      handed [8, 1] (sending (0xde, 0xad) (fun _ => 7) 1) ≠
        handed [8, 1] (sending (0, 0) (fun _ => 7) 1) := by
  decide +kernel

end Stack

end VirtualFirmware.Messaging
