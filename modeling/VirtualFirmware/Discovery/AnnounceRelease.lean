import VirtualFirmware.Discovery.AnnounceLoops

/-!
# What `announce` leaves behind

`announce` gives back what it created unless the group cannot be left or more interfaces are usable
than its arrays have entries. In the first case the label `err` frees a panel that the loop before
it has freed, and in the second it leaves the array. It stops at a `NULL` panel when there is no
memory, and when no interface is usable.
-/

namespace VirtualFirmware.Discovery

open Library

/-- No array was left, no panel was used after it was freed, and if the run returned then all panels
are freed and the socket returned is the only one open. -/
def Kept (result : Except Halt Socket × World) : Prop :=
  match result.1 with
  | .ok socket => Owns result.2 [] socket.toList
  | .error (.fault .nullPanel) => True
  | .error (.fault .freedPanel) => False
  | .error (.fault .outOfBounds) => False
  | .error .running => True

/-- The run kept to the rules exactly if the group could be left and the interfaces fit, and it
stopped at a `NULL` panel exactly if there was no memory or no interface. -/
def AnnounceJudged (opt : Options) (result : Except Halt Socket × World) : Prop :=
  (Kept result ↔ ¬ LeaveFailed result.2.calls ∧ ¬ Overfull result.2.calls) ∧
    (result.1 = .error (.fault .nullPanel) ↔
      NoMemory result.2.calls ∨ (Deserted result.2.calls ∧ 0 ≤ opt.timeout))

section Exits

variable {opt : Options} {w : World}

/-- A run that owns nothing but the socket it returns, and met nothing `announce` cannot cope with,
kept to the rules. -/
theorem judged_of_owns {socket : Socket} (h : Owns w [] socket.toList) (hproper : Proper w.calls) :
    AnnounceJudged opt (.ok socket, w) :=
  ⟨iff_of_true h ⟨hproper.leaves, hproper.fits⟩,
    iff_of_false nofun (not_or.mpr ⟨hproper.memory, fun hd => hproper.inhabited hd.1⟩)⟩

/-- A run that has not ended has broken no rule, if it met nothing `announce` cannot cope with. -/
theorem judged_of_running (hproper : Proper w.calls) : AnnounceJudged opt (.error .running, w) :=
  ⟨iff_of_true trivial ⟨hproper.leaves, hproper.fits⟩,
    iff_of_false nofun (not_or.mpr ⟨hproper.memory, fun hd => hproper.inhabited hd.1⟩)⟩

/-- A run without memory for a panel stops at a `NULL` panel. -/
theorem judged_of_outOfMemory (h : OutOfMemory w.calls) :
    AnnounceJudged opt (.error (.fault .nullPanel), w) :=
  ⟨iff_of_true trivial ⟨h.2.2, h.2.1⟩, iff_of_true rfl (.inl h.1)⟩

/-- The run used a panel that it had freed, after the group could not be left. -/
theorem judged_of_leaveFailed {calls : List (Sigma SysReply)} (hproper : Proper calls)
    {socket : Socket} {group : SockAddr} {interface : Membership}
    (hcalls : w.calls =
      calls ++ [⟨.setsockopt socket (.dropMembership group interface), socketError⟩]) :
    AnnounceJudged opt (.error (.fault .freedPanel), w) := by
  have hfailed : LeaveFailed w.calls :=
    ⟨socket, group, interface, hcalls ▸ List.mem_append_right _ (List.mem_singleton_self _)⟩
  have hmemory : ¬ NoMemory w.calls := by
    rw [hcalls, NoMemory, List.mem_append]
    exact not_or.mpr ⟨hproper.memory, by simp⟩
  have hdeserted : ¬ Deserted w.calls := by
    rw [hcalls, deserted_append (by simp [SysCall.Enumerates, SysCall.AsksName])]
    exact hproper.inhabited
  have hfault : (.error (.fault .freedPanel) : Except Halt Socket) ≠
      .error (.fault .nullPanel) := by decide
  exact ⟨iff_of_false id fun h => h.1 hfailed,
    iff_of_false hfault (not_or.mpr ⟨hmemory, fun h => hdeserted h.1⟩)⟩

/-- The label `err` releases what is in the entries. -/
theorem announceErr_judged {slots : List Slot} {ifdLength : ℕ}
    (hlength : slots.length = maxIfLength) (hsmall : ifdLength ≤ maxIfLength)
    (h : Owns w (slots.flatMap Slot.owned) []) (hproper : Proper w.calls) :
    Interaction.Always (AnnounceJudged opt)
      (announceErr (slots.map Slot.pointers) ifdLength w) := by
  have hstart : Owns w ((slots.drop (slots.length - slots.length)).flatMap Slot.owned) [] := by
    rwa [Nat.sub_self, List.drop_zero]
  obtain ⟨w', hloop, howns, hcalls⟩ := errLoop_frees le_rfl hstart
  rw [announceErr, Nat.max_eq_right hsmall, ← hlength, chain_of_eq hloop]
  exact judged_of_owns howns (hcalls ▸ hproper)

end Exits

section Rounds

variable (opt : Options) {built : List (Owned × Owned)} {w : World}

/-- When all interfaces were built, the label `err` releases their panels and keeps to the rules. -/
theorem announceErr_ready (h : Ready w built []) (hbuilt : built.length ≤ maxIfLength) :
    Interaction.Always (AnnounceJudged opt)
      (announceErr ((slotsOf built []).map Slot.pointers) built.length w) := by
  refine announceErr_judged (slotsOf_length hbuilt) hbuilt ?_ h.proper
  rw [slotsOf_owned, List.flatMap_nil, List.append_nil]
  exact h.owns

/-- The label `err` when a panel of an interface was freed before. -/
theorem announceErr_freed (hbuilt : built.length ≤ maxIfLength) {i : ℕ} (hi : i < built.length)
    (hfreed : w.panels.value built[i].2.1 = none) :
    ∃ w', announceErr ((slotsOf built []).map Slot.pointers) built.length w =
      .pure (.error (.fault .freedPanel), w') ∧ w'.calls = w.calls := by
  have hlength : ((slotsOf built []).map Slot.pointers).length = maxIfLength := by
    rw [List.length_map]
    exact slotsOf_length hbuilt
  obtain ⟨w', hloop, hcalls⟩ :=
    errLoop_freed le_rfl (Nat.sub_self _ ▸ Nat.zero_le i) (slotsOf_getElem hi [])
    rfl hfreed
  refine ⟨w', ?_, hcalls⟩
  rw [announceErr, Nat.max_eq_right hbuilt, ← hlength]
  exact chain_of_stop hloop _

/-- The socket that is returned is not one of a panel. -/
theorem Owns.socket_ne {owned : List Owned} {socket : Socket} (h : Owns w owned socket.toList)
    {o : Owned} (hmem : o ∈ owned) : socket ≠ some o.2 := by
  rintro rfl
  have hnodup := h.sockets.nodup
  rw [List.nodup_append] at hnodup
  exact hnodup.2.2 _ (List.mem_map_of_mem hmem) _ (List.mem_singleton_self _) rfl

/-- The loop frees the panels of an interface after the other, or comes to the label `err` with one
of them freed. -/
theorem cleanupLoop_judged (hbuilt : built.length ≤ maxIfLength) {socket : Socket} {left : ℕ}
    (hleft : left ≤ built.length) (h : Ready w (built.drop (built.length - left)) socket.toList) :
    Interaction.Always (AnnounceJudged opt)
      (cleanupLoop ((slotsOf built []).map Slot.pointers) built.length socket left w) := by
  induction left generalizing w with
  | zero =>
    rw [Nat.sub_zero, List.drop_length] at h
    exact judged_of_owns h.owns h.proper
  | succ left ih =>
    have hi : built.length - (left + 1) < built.length := by omega
    have hnext : built.length - (left + 1) + 1 = built.length - left := by omega
    rw [List.drop_eq_getElem_cons hi, hnext] at h
    have hsub := groups_subset (built.drop (built.length - left))
    obtain ⟨cs, hcs, hsocket⟩ := h.owns.exists_panel (o := built[built.length - (left + 1)].2)
      (List.mem_cons_of_mem _ List.mem_cons_self)
    have hne : socket ≠ cs.spSocket :=
      hsocket ▸ h.owns.socket_ne (List.mem_cons_of_mem _ List.mem_cons_self)
    have hfirst : Holding w (built[built.length - (left + 1)].2 ::
        built[built.length - (left + 1)].1 ::
        panelsOf (built.drop (built.length - left))) _ socket.toList :=
      ⟨h.owns.perm (List.Perm.swap _ _ _), h.grouped, h.proper⟩
    have hsecond := hfirst.without (List.cons_subset_cons _ hsub)
    rw [cleanupLoop, chain_of_eq (entry_eq (slotsOf_getElem hi []) w)]
    simp only [Slot.pointers, Slot.full, Option.map_some]
    rw [chain_of_eq (deref_eq hcs), if_neg hne, chain_of_eq (freePanel_owned hfirst.owns),
      always_chain]
    refine (leaveMulticastGroup_leaves (hsecond.grouped _ List.mem_cons_self) none).mono ?_
    rintro ⟨_, w'⟩ ⟨_, _, _, ⟨rfl, hw'⟩ | ⟨rc, hrc, rfl, htouched, hcalls⟩⟩
    · -- the panel that was just freed is still in its entry
      have hfreed : w'.panels.value built[built.length - (left + 1)].2.1 = none :=
        (congrArg (fun w : World => w.panels.value _) hw').trans (Handles.release_self _)
      obtain ⟨w'', herr, hcalls⟩ := announceErr_freed hbuilt hi hfreed
      dsimp only
      rw [if_pos rfl, herr]
      exact judged_of_leaveFailed h.proper (hcalls.trans (congrArg World.calls hw'))
    · have hleft' :
          Holding w' (built[built.length - (left + 1)].1 ::
            panelsOf (built.drop (built.length - left)))
          ((built.drop (built.length - left)).map Prod.fst) socket.toList :=
        Holding.left ⟨hsecond.owns, fun o ho => hsecond.grouped o (List.mem_cons_of_mem _ ho),
          hsecond.proper⟩ hsub
          hrc htouched hcalls
      dsimp only
      rw [if_neg hrc, chain_of_eq (freePanel_owned hleft'.owns)]
      exact ih (by omega) (hleft'.without hsub)

/-- A round sends, waits and perhaps accepts. -/
theorem announceRound_judged (hbuilt : built.length ≤ maxIfLength) (hsome : 0 < built.length)
    {again : DiscoveryM Socket}
    (hagain : ∀ w, Ready w built [] → Interaction.Always (AnnounceJudged opt) (again w))
    (h : Ready w built []) :
    Interaction.Always (AnnounceJudged opt)
      (announceRound opt ((slotsOf built []).map Slot.pointers) built.length again w) := by
  refine (sendLoop_untouched opt le_rfl h.owns).always_bind fun rc w huntouched => ?_
  have h := h.untouched huntouched
  refine always_ite (fun _ => announceErr_ready opt h hbuilt) fun _ => ?_
  obtain ⟨⟨hs, hhs, -⟩, -⟩ := h.owns.exists_pair hsome
  obtain ⟨sockets, hsockets⟩ := fdSetLoop_eq le_rfl h.owns
  rw [announceWait, chain_of_eq (entry_eq (slotsOf_getElem hsome []) w)]
  simp only [Slot.pointers, Slot.full, Option.map_some]
  rw [chain_of_eq (deref_eq hhs), chain_of_eq hsockets, always_sys]
  intro selected
  have hselected : Ready (w.called (.select sockets) selected) built [] :=
    ⟨h.owns.called (.select sockets) selected, h.grouped,
      h.proper.makes (.called w (by trivial) selected)⟩
  cases selected with
  | failed => exact announceErr_ready opt hselected hbuilt
  | timedOut => exact hagain _ hselected
  | ready fds =>
    refine (acceptLoop_ready fds le_rfl hselected).always_bind fun socket w h => ?_
    cases socket with
    | none => exact hagain w h
    | some fd =>
      refine cleanupLoop_judged opt hbuilt le_rfl ?_
      rwa [Nat.sub_self, List.drop_zero]

/-- Every run of the rounds keeps to the rules exactly if the group can be left. -/
theorem announceLoop_judged (hbuilt : built.length ≤ maxIfLength) (hsome : 0 < built.length)
    (rounds : ℕ) (count : Int) (h : Ready w built []) :
    Interaction.Always (AnnounceJudged opt)
      (announceLoop opt ((slotsOf built []).map Slot.pointers) built.length rounds count w) := by
  have hcleanup {w : World} (h : Ready w built []) : Interaction.Always (AnnounceJudged opt)
      (cleanupLoop ((slotsOf built []).map Slot.pointers) built.length none built.length w) := by
    refine cleanupLoop_judged opt hbuilt le_rfl ?_
    rwa [Nat.sub_self, List.drop_zero]
  induction rounds generalizing w count with
  | zero => exact always_ite (fun _ => judged_of_running h.proper) fun _ => hcleanup h
  | succ rounds ih =>
    exact always_ite
      (fun _ => announceRound_judged opt hbuilt hsome (fun w h => ih (count + 1) h) h) fun _ =>
      hcleanup h

/-- So does every run that listens on the panels before the rounds. -/
theorem announcePanels_judged (hbuilt : built.length ≤ maxIfLength) (hsome : 0 < built.length)
    (rounds : ℕ) (h : Ready w built []) :
    Interaction.Always (AnnounceJudged opt)
      (announcePanels opt ((slotsOf built []).map Slot.pointers) built.length rounds w) := by
  refine (listenLoop_untouched le_rfl h.owns).always_bind fun rc w huntouched => ?_
  have h := h.untouched huntouched
  exact always_ite (fun _ => announceErr_ready opt h hbuilt) fun _ =>
    announceLoop_judged opt hbuilt hsome rounds 0 h

end Rounds

/-- Without an interface the first round stops at `NULL`, and without a round nothing happens. -/
theorem announcePanels_deserted (opt : Options) (rounds : ℕ) {w : World} (h : Owns w [] [])
    (hfits : ¬ Overfull w.calls) (hleaves : ¬ LeaveFailed w.calls) (hmemory : ¬ NoMemory w.calls)
    (hdeserted : Deserted w.calls) :
    Interaction.Always (AnnounceJudged opt)
      (announcePanels opt ((slotsOf [] []).map Slot.pointers) 0 (rounds + 1) w) := by
  change Interaction.Always _ (announceLoop opt ((slotsOf [] []).map Slot.pointers) 0
    (rounds + 1) 0 w)
  rw [announceLoop]
  refine always_ite (fun hround => ?_) fun hround => ?_
  · have htimeout : 0 ≤ opt.timeout := by
      rw [packetsPerSec] at hround
      omega
    exact ⟨iff_of_true trivial ⟨hleaves, hfits⟩, iff_of_true rfl (.inr ⟨hdeserted, htimeout⟩)⟩
  · have htimeout : ¬ 0 ≤ opt.timeout := by
      rw [packetsPerSec] at hround
      omega
    exact ⟨iff_of_true h ⟨hleaves, hfits⟩,
      iff_of_false nofun (not_or.mpr ⟨hmemory, fun hd => htimeout hd.2⟩)⟩

/-- The calls of the enumeration leave no group and ask for no memory. -/
theorem Makes.enumerates_clean {w : World} (h : Makes SysCall.Enumerates .initial w) :
    ¬ LeaveFailed w.calls ∧ ¬ NoMemory w.calls := by
  obtain ⟨calls, hcalls, henumerates⟩ := h
  rw [hcalls]
  refine ⟨?_, fun hmem => ?_⟩
  · rintro ⟨socket, group, interface, hmem⟩
    exact (henumerates _ hmem).elim nofun id
  · exact (henumerates _ hmem).elim nofun id

/-- `announce` keeps to its arrays, frees each panel once and leaves no socket open but the one it
returns, exactly if the group can be left and at most `MAX_IF_LENGTH` interfaces are usable; and it
stops at a `NULL` panel exactly if there is no memory for one, or no interface to announce on. -/
theorem announce_kept_iff (opt : Options) (rounds : ℕ) :
    Interaction.Always (fun result =>
        (Kept result ↔ ¬ LeaveFailed result.2.calls ∧ ¬ Overfull result.2.calls) ∧
          (result.1 = .error (.fault .nullPanel) ↔
            NoMemory result.2.calls ∨ (Deserted result.2.calls ∧ 0 ≤ opt.timeout)))
      (announce opt (rounds + 1) .initial) := by
  have hlength : (List.replicate maxIfLength IfData.unset).length = maxIfLength :=
    List.length_replicate
  refine (populateInterfaceData_populates hlength).always_bind ?_
  rintro ⟨rc, ifd, ifdLength⟩ w hpopulated
  have howns : Owns w [] [] := hpopulated.untouched.owns owns_initial
  obtain ⟨hleaves, hmemory⟩ := hpopulated.untouched.calls.enumerates_clean
  have hslots : List.replicate maxIfLength ⟨none, none⟩ = (slotsOf [] []).map Slot.pointers := rfl
  dsimp only
  obtain ⟨hfits, hcount⟩ | ⟨hoverfull, hrc, hcount⟩ := hpopulated.count
  · refine always_ite (fun hrc => ?_) fun hrc => ?_
    · have hinhabited : ¬ Deserted w.calls := fun hd => (hpopulated.deserted.mp hd).1 hrc
      rw [hslots]
      exact announceErr_judged (slotsOf_length (Nat.zero_le _)) hcount howns
        ⟨hfits, hinhabited, hleaves, hmemory⟩
    · by_cases hzero : ifdLength = 0
      · rw [hzero]
        exact announcePanels_deserted opt rounds howns hfits hleaves hmemory
          (hpopulated.deserted.mpr ⟨hrc, hzero⟩)
      · have hproper : Proper w.calls :=
          ⟨hfits, fun hd => hzero (hpopulated.deserted.mp hd).2, hleaves, hmemory⟩
        rw [hslots, always_chain]
        refine (buildLoop_builds opt hpopulated.length hcount (Nat.zero_add _)
          (⟨howns, nofun, hproper⟩ : Ready w [] [])).mono ?_
        rintro ⟨_, w'⟩
          (⟨rfl, hmemory⟩ | ⟨slots, hslots, rfl, howns, hproper⟩ | ⟨built, rfl, rfl, hready⟩)
        · exact judged_of_outOfMemory hmemory
        · exact announceErr_judged hslots hcount howns hproper
        · exact announcePanels_judged opt hcount (Nat.pos_of_ne_zero hzero) (rounds + 1) hready
  · have herr : announceErr (List.replicate maxIfLength ⟨none, none⟩) ifdLength w =
        .pure (.error (.fault .outOfBounds), w) := by
      rw [announceErr, Nat.max_eq_left hcount.le]
      exact chain_of_stop (errLoop_overruns hcount le_rfl (Nat.sub_self _ ▸ Nat.zero_le _) w) _
    have hinhabited : ¬ Deserted w.calls := fun hd => (hpopulated.deserted.mp hd).1 hrc
    rw [if_pos hrc, herr]
    exact ⟨iff_of_false id fun h => h.2 hoverfull,
      iff_of_false nofun (not_or.mpr ⟨hmemory, fun hd => hinhabited hd.1⟩)⟩

/-- A fault other than a `NULL` panel breaks the rules. -/
theorem not_kept_of_fault {result : Except Halt Socket × World} {fault : Fault}
    (h : result.1 = .error (.fault fault)) (hne : fault ≠ .nullPanel) : ¬ Kept result := by
  rw [Kept, h]
  cases fault with
  | nullPanel => exact absurd rfl hne
  | freedPanel => exact id
  | outOfBounds => exact id

/-- A machine with this many interfaces, on which the first connection is accepted and leaving the
group has this result. -/
def announceNetwork (count : ℕ) (leave : Int) : (op : SysCall) → SysReply op
  | .getifaddrs => some (List.replicate count ⟨"eth0", some ⟨.inet, 0, 0⟩, true, true, false⟩)
  | .setsockopt _ (.dropMembership _ _) => leave
  | .select _ => .ready [1]
  | op => op.success

/-- When the group cannot be left after a connection, the panel of the connection's interface is
freed again; and with one interface more than there are entries the array is left. -/
theorem announce_frees_twice :
    (((announce .default 1 .initial).resolve (announceNetwork 1 (-1))).1 =
      .error (.fault .freedPanel) ∧
        ¬ Kept ((announce .default 1 .initial).resolve (announceNetwork 1 (-1)))) ∧
      ((announce .default 1 .initial).resolve (announceNetwork 33 0)).1 =
        .error (.fault .outOfBounds) ∧
        ¬ Kept ((announce .default 1 .initial).resolve (announceNetwork 33 0)) := by
  have hfreed : ((announce .default 1 .initial).resolve (announceNetwork 1 (-1))).1 =
      .error (.fault .freedPanel) := by decide +kernel
  have hbounds : ((announce .default 1 .initial).resolve (announceNetwork 33 0)).1 =
      .error (.fault .outOfBounds) := by decide +kernel
  exact ⟨⟨hfreed, not_kept_of_fault hfreed nofun⟩, hbounds, not_kept_of_fault hbounds nofun⟩

end VirtualFirmware.Discovery
