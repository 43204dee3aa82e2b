import VirtualFirmware.Driver.Slots

/-!
# One cleaning of the ring

The loop of `e1000_clean_asq` clears slots as long as they are done. It does not compare its
index with the ring's size, so only the done flags stop it, and it takes any done flag for
the end of a command of the driver.
-/

namespace VirtualFirmware.Driver

open Library Adminq Device

/-- The cleaning looked only at slots of the ring, caught up with `next_to_use`, and found all slots
but one free. -/
structure Cleaning.Exact (cleaning : Cleaning) (count : UInt16) : Prop where
  inspected : ∀ i ∈ cleaning.inspected, i < count
  caughtUp : cleaning.nextToClean = cleaning.nextToUse
  unused : cleaning.unused.toNat = count.toNat - 1

namespace Asq

variable (aq : AdminqInfo)

/-- A slot that is cleared is not done, and the others stay as they are. -/
theorem slotDone_cleared (i : UInt16) (ram : AddressSpace) {k : ℕ} (hk : k < 2 ^ 32) :
    SlotDone (cleared aq i ram) aq.dma k ↔ k ≠ i.toNat ∧ SlotDone ram aq.dma k := by
  have hi : i.toNat < 2 ^ 32 := Nat.lt_trans i.toNat_lt (by decide)
  have hzeros : (List.replicate AqDesc.size (0 : UInt8)).length ≤ AqDesc.size := by simp
  rw [cleared, adminqDesc_eq]
  by_cases hne : k = i.toNat
  · have hread :=
      AddressSpace.read_write ram (recordAt AqDesc.size aq.dma i.toNat)
        (List.replicate AqDesc.size 0)
      (by rw [List.length_replicate]; decide)
    rw [List.length_replicate] at hread
    refine iff_of_false ?_ fun h => h.1 hne
    rw [SlotDone, hne, descAt, hread]
    decide
  · rw [SlotDone, descAt_overwrite_of_ne ram aq.dma hk hi hne _ hzeros]
    exact (and_iff_right hne).symm

variable {aq} {ram : AddressSpace} {i : UInt16}

/-- The loop ends at a slot that is not done. -/
theorem cleaned_of_not_done (h : ¬ SlotDone ram aq.dma i.toNat) (fuel : ℕ) :
    cleaned aq (fuel + 1) i ram = ⟨[i], i, [], ram⟩ := by
  rw [cleaned, adminqDesc_eq]
  exact if_neg h

/-- The loop clears a slot that is done and goes on. -/
theorem cleaned_of_done (h : SlotDone ram aq.dma i.toNat) (fuel : ℕ) :
    cleaned aq (fuel + 1) i ram =
      { cleaned aq fuel (i + 1) (cleared aq i ram) with
        inspected := i :: (cleaned aq fuel (i + 1) (cleared aq i ram)).inspected
        targets := .ring :: (cleaned aq fuel (i + 1) (cleared aq i ram)).targets } := by
  rw [cleaned, adminqDesc_eq]
  exact if_pos h

/-- The loop looks at the slot at which it is. -/
theorem mem_inspected (aq : AdminqInfo) (fuel : ℕ) (i : UInt16) (ram : AddressSpace) :
    i ∈ (cleaned aq (fuel + 1) i ram).inspected := by
  by_cases h : SlotDone ram aq.dma i.toNat
  · rw [cleaned_of_done h]
    exact List.mem_cons_self
  · rw [cleaned_of_not_done h]
    exact List.mem_cons_self

/-- After a slot that is done the loop looks at the next one. -/
theorem mem_inspected_succ (h : SlotDone ram aq.dma i.toNat) (fuel : ℕ) :
    i + 1 ∈ (cleaned aq (fuel + 2) i ram).inspected := by
  rw [cleaned_of_done h]
  exact List.mem_cons_of_mem i (mem_inspected aq fuel (i + 1) _)

/-- Once as many slots before the index are clear as remain to be looked at, the loop ends at a slot
that is not done. -/
theorem cleaned_ends (fuel visited : ℕ) (hfuel : fuel + visited = 65537)
    (hvisited : visited ≤ 65536)
    (hclear : ∀ d, 1 ≤ d → d ≤ visited → ¬ SlotDone ram aq.dma (i - UInt16.ofNat d).toNat) :
    ¬ SlotDone (cleaned aq fuel i ram).ram aq.dma (cleaned aq fuel i ram).last.toNat := by
  induction fuel generalizing visited i ram with
  | zero => omega
  | succ fuel ih =>
    by_cases h : SlotDone ram aq.dma i.toNat
    · -- after all indices the first one comes again, which is clear
      have hroom : visited ≠ 65536 := by
        intro hall
        have hsame : i - UInt16.ofNat 65536 = i := by
          rw [show UInt16.ofNat 65536 = 0 from rfl, UInt16.sub_zero]
        exact hclear 65536 (by decide) hall.ge (hsame.symm ▸ h)
      rw [cleaned_of_done h]
      refine ih (visited + 1) (by omega) (by omega) fun d hpos hd => ?_
      rw [slotDone_cleared aq i ram (Nat.lt_trans (UInt16.toNat_lt _) (by decide))]
      rintro ⟨hne, hdone⟩
      have hback : i + 1 - UInt16.ofNat d = i - UInt16.ofNat (d - 1) := by
        obtain ⟨e, rfl⟩ := Nat.exists_eq_add_of_le' hpos
        rw [UInt16.ofNat_add, Nat.add_sub_cancel]
        grind
      rw [hback] at hne hdone
      by_cases hfirst : d = 1
      · apply hne
        rw [hfirst]
        simp
      · exact hclear (d - 1) (by omega) (by omega) hdone
    · rw [cleaned_of_not_done h]
      exact h

/-- The loop of `e1000_clean_asq` ends, whatever guest RAM holds. -/
theorem cleanedNow_ends (s : AsqState) (aq : AdminqInfo) (m : Machine) :
    ¬ SlotDone (cleanedNow s aq m).ram aq.dma (cleanedNow s aq m).last.toNat :=
  cleaned_ends 65537 0 rfl (by decide) fun d hpos hd => by omega

/-- The index after one of the ring does not wrap. -/
theorem toNat_succ (count : UInt16) (h : i.toNat < count.toNat) : (i + 1).toNat = i.toNat + 1 := by
  have hcount := count.toNat_lt
  rw [UInt16.toNat_add, UInt16.toNat_one, Nat.mod_eq_of_lt (by omega)]

/-- From a slot of the ring that is done, with no done slot after it in the ring, the loop ends
behind that slot or leaves the ring. -/
theorem cleaned_overruns {count : UInt16} (hi : i.toNat < count.toNat)
    (hdone : SlotDone ram aq.dma i.toNat)
    (hnext : i.toNat + 1 < count.toNat → ¬ SlotDone ram aq.dma (i.toNat + 1)) (fuel : ℕ) :
    (∃ k ∈ (cleaned aq (fuel + 2) i ram).inspected, ¬ k < count) ∨
      (cleaned aq (fuel + 2) i ram).last.toNat = i.toNat + 1 := by
  have hsucc := toNat_succ count hi
  by_cases hlast : i.toNat + 1 < count.toNat
  · right
    have hnot : ¬ SlotDone (cleared aq i ram) aq.dma (i + 1).toNat := by
      have hcount := count.toNat_lt
      rw [hsucc, slotDone_cleared aq i ram (by omega)]
      exact fun h => hnext hlast h.2
    rw [cleaned_of_done hdone, cleaned_of_not_done hnot]
    exact hsucc
  · refine .inl ⟨i + 1, mem_inspected_succ hdone fuel, ?_⟩
    rw [UInt16.lt_iff_toNat_lt, hsucc]
    exact hlast

/-- The record of the cleaning that is made now. -/
def cleaningNow (s : AsqState) (aq : AdminqInfo) (m : Machine) : Cleaning :=
  ⟨(cleanedNow s aq m).inspected, (cleanedNow s aq m).last, aq.nextToUse,
    descUnused aq.count (cleanedNow s aq m).last aq.nextToUse⟩

/-- A ring that was caught up with has all slots but one free. -/
theorem descUnused_self (count index : UInt16) : descUnused count index index = count - 1 := by
  rw [descUnused, if_neg (UInt16.lt_irrefl index), UInt16.add_sub_cancel]

end Asq

end VirtualFirmware.Driver
