import VirtualFirmware.Driver.Account

/-!
# One command with the cleaning

A command is turned away for its buffer, finds no free slot, or is posted. Whatever it does,
the account is exact up to now, or some cleaning was not exact and the commands have passed
the old head or the end of the ring.
-/

namespace VirtualFirmware.Driver.Asq

open Library Adminq Device

/-- What a command does with the cleaning: it is turned away, finds no free slot, or is posted. -/
inductive CleanStep (s : AsqState) (aq : AdminqInfo) (m : Machine) (call : AsqCall) :
    AsqState → AdminqInfo → Machine → Prop
  | oversize (hsize : ¬ call.buffSize ≤ aq.asqBufSize) :
    CleanStep s aq m call (s.noted [.release]) aq m
  | full (hfits : call.buffSize ≤ aq.asqBufSize) (hfull : (cleaningNow s aq m).unused = 0) :
      CleanStep s aq m call
        ((afterClean (s.noted [.acquire]) aq (cleanedNow s aq m)).noted [.release]) aq
        { m with ram := (cleanedNow s aq m).ram }
  | posted (hfits : call.buffSize ≤ aq.asqBufSize) (hfree : (cleaningNow s aq m).unused ≠ 0)
      (events : List (LockEvent Shared)) {m' : Machine}
      (hwritten : TailWritten (posted aq call { m with ram := (cleanedNow s aq m).ram })
        aq.bumped.nextToUse.toUInt32 m') :
      CleanStep s aq m call
        (((afterClean (s.noted [.acquire]) aq (cleanedNow s aq m)).noted events).wrote
          (posted aq call { m with ram := (cleanedNow s aq m).ram }) m') aq.bumped m'

/-- Every outcome of a command is a step of the cleaning driver. -/
theorem e1000AsqSendCommand_step (startXmit : Machine → Machine) (s : AsqState) (aq : AdminqInfo)
    (m : Machine) (call : AsqCall) :
    Interaction.Always (fun result => CleanStep s aq m call result.1.1.2 result.1.2 result.2)
      (e1000AsqSendCommand startXmit true call s aq m) := by
  by_cases hsize : call.buffSize > aq.asqBufSize
  · rw [e1000AsqSendCommand_oversize s aq m startXmit hsize]
    exact .oversize (by simpa using hsize)
  · have hfits : call.buffSize ≤ aq.asqBufSize := by simpa using hsize
    rw [e1000AsqSendCommand_cleaned s aq m startXmit hsize]
    split
    · exact .full hfits ‹_›
    · rw [postCommand_eq, Interaction.always_bind]
      exact (e1000SetAtqTail_written _ _).mono fun written hwritten => .posted hfits ‹_› _ hwritten

/-- Every cleaning was exact. -/
def AllExact (count : UInt16) (s : AsqState) : Prop :=
  ∀ cleaning ∈ s.cleanings, cleaning.Exact count

/-- Every tail write completed the command at the head. -/
def AllComplete (dma : UInt64) (count : UInt16) (s : AsqState) : Prop :=
  ∀ write ∈ s.tailWrites, Completes dma count.toNat write.1 write.2

/-- Nothing that was noted is forgotten. -/
structure Grows (s s' : AsqState) : Prop where
  cleanings : s.cleanings ⊆ s'.cleanings
  tailWrites : s.tailWrites ⊆ s'.tailWrites

/-- How far the account of a ring was exact: up to now, or no longer. -/
inductive Progress (s : AsqState) (aq : AdminqInfo) (m : Machine) (head served : ℕ) : Prop
  | exact (haccount : Account s aq m head served) (hall : AllExact aq.numAsqEntries s)
  | broken (hlate : head < served ∨ aq.numAsqEntries.toNat < served)
      (hsome : ¬ AllExact aq.numAsqEntries s)

variable {s s' s'' : AsqState} {aq aq' : AdminqInfo} {m m' : Machine} {call : AsqCall}
  {head served : ℕ}

/-- What grows from a state that has grown has grown from the first. -/
theorem Grows.trans (h : Grows s s') (h' : Grows s' s'') : Grows s s'' :=
  ⟨List.Subset.trans h.cleanings h'.cleanings, List.Subset.trans h.tailWrites h'.tailWrites⟩

/-- What is complete at the end was complete before. -/
theorem Grows.allComplete (h : Grows s s') {dma : UInt64} {count : UInt16}
    (hall : AllComplete dma count s') :
    AllComplete dma count s :=
  fun write hmem => hall write (h.tailWrites hmem)

/-- What is exact at the end was exact before. -/
theorem Grows.allExact (h : Grows s s') {count : UInt16} (hall : AllExact count s') :
    AllExact count s :=
  fun cleaning hmem => hall cleaning (h.cleanings hmem)

/-- A command only adds to what was noted. -/
theorem CleanStep.grows (h : CleanStep s aq m call s' aq' m') : Grows s s' := by
  cases h with
  | oversize hsize => exact ⟨List.Subset.refl _, List.Subset.refl _⟩
  | full hfits hfull => exact ⟨List.subset_append_left _ _, List.Subset.refl _⟩
  | posted hfits hfree events hwritten =>
    exact ⟨List.subset_append_left _ _, List.subset_append_left _ _⟩

/-- The queue stays where it is. -/
theorem CleanStep.queue (h : CleanStep s aq m call s' aq' m') :
    aq'.numAsqEntries = aq.numAsqEntries ∧ aq'.dma = aq.dma ∧ aq'.asqBufSize = aq.asqBufSize := by
  cases h <;> exact ⟨rfl, rfl, rfl⟩

/-- The account depends on `next_to_clean` and the cleanings alone. -/
theorem Progress.congr (h : Progress s aq m head served) (hclean : s'.nextToClean = s.nextToClean)
    (hcleanings : s'.cleanings = s.cleanings) : Progress s' aq m head served := by
  have hexact : AllExact aq.numAsqEntries s' ↔ AllExact aq.numAsqEntries s := by
    rw [AllExact, hcleanings, AllExact]
  cases h with
  | exact haccount hall =>
    refine .exact ⟨haccount.inStep, haccount.entries, haccount.apart, haccount.beforeHead,
      haccount.beforeEnd, ?_, haccount.done⟩ (hexact.mpr hall)
    rw [hclean, haccount.nextToClean]
  | broken hlate hsome => exact .broken hlate (mt hexact.mp hsome)

/-- A command that is turned away changes nothing in the account. -/
theorem CleanStep.progress_oversize (h : CleanStep s aq m call s' aq' m')
    (hsize : ¬ call.buffSize ≤ aq.asqBufSize) (hprogress : Progress s aq m head served) :
    Progress s' aq' m' head served := by
  cases h with
  | oversize _ => exact hprogress.congr rfl rfl
  | full hfits _ => exact absurd hfits hsize
  | posted hfits _ _ _ => exact absurd hfits hsize

/-- The cleaning before a command is noted. -/
theorem CleanStep.cleaningNow_mem (h : CleanStep s aq m call s' aq' m')
    (hfits : call.buffSize ≤ aq.asqBufSize) :
    s'.cleanings = s.cleanings ++ [cleaningNow s aq m] := by
  cases h with
  | oversize hsize => exact absurd hfits hsize
  | full _ _ => rfl
  | posted _ _ _ _ => rfl

/-- Any other command, once it is completed, takes the account one command further. -/
theorem CleanStep.progress (h : CleanStep s aq m call s' aq' m')
    (hfits : call.buffSize ≤ aq.asqBufSize) (hcomplete : AllComplete aq.dma aq.numAsqEntries s')
    (hprogress : Progress s aq m head served) :
    Progress s' aq' m' head (served + 1) := by
  obtain ⟨hentries, -, -⟩ := h.queue
  have hcleanings := h.cleaningNow_mem hfits
  cases hprogress with
  | broken hlate hsome =>
    refine .broken (by rw [hentries]; omega) fun hall => hsome ?_
    exact h.grows.allExact (hentries ▸ hall)
  | exact haccount hall =>
    by_cases hroom : served < head ∧ served < aq.numAsqEntries.toNat
    · have hexact := haccount.exact hroom.1 hroom.2
      have hfree : (cleaningNow s aq m).unused ≠ 0 := by
        intro hzero
        have hunused := hexact.unused
        have hsize := haccount.entries
        rw [hzero, UInt16.toNat_zero] at hunused
        omega
      have hall' : AllExact aq.numAsqEntries s' := by
        intro cleaning hmem
        rw [hcleanings, List.mem_append, List.mem_singleton] at hmem
        rcases hmem with hmem | rfl
        · exact hall cleaning hmem
        · exact hexact
      cases h with
      | oversize hsize => exact absurd hfits hsize
      | full _ hfull => exact absurd hfull hfree
      | posted _ _ events hwritten =>
        refine .exact (haccount.next hroom.1 hroom.2 hfits rfl hwritten ?_) hall'
        exact hcomplete _ (List.mem_append_right _ (List.mem_singleton_self _))
    · have hstop : served = head ∨ served = aq.numAsqEntries.toNat := by
        have hhead := haccount.beforeHead
        have hend := haccount.beforeEnd
        omega
      refine .broken (by rw [hentries]; omega) fun hall' => haccount.not_exact hstop ?_
      rw [hentries] at hall'
      exact hall' _ (by rw [hcleanings]; exact List.mem_append_right _ (List.mem_singleton_self _))

end VirtualFirmware.Driver.Asq
