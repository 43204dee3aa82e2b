import Mathlib.Data.List.Pairwise
import VirtualFirmware.Discovery.BuildPanels

/-!
# The loops of `announce`

The loops run over the interfaces that were built. Listening, sending and collecting the sockets
leave the panels alone; accepting gives one more socket, which belongs to no panel.
-/

namespace VirtualFirmware.Discovery

open Library

/-- All these interfaces were built. -/
abbrev Ready (w : World) (built : List (Owned × Owned)) (loose : List ℕ) : Prop :=
  Holding w (panelsOf built) (built.map Prod.fst) loose

/-- What the loop that builds the panels can do: stop for want of memory, fail with what it made in
the entries, or build all of them. -/
def BuildsAll (count : ℕ) (result : Except Halt (Int × List IfPanel) × World) : Prop :=
  (result.1 = .error (.fault .nullPanel) ∧ OutOfMemory result.2.calls) ∨
    (∃ slots : List Slot, slots.length = maxIfLength ∧
      result.1 = .ok (socketError, slots.map Slot.pointers) ∧
      Owns result.2 (slots.flatMap Slot.owned) [] ∧ Proper result.2.calls) ∨
    ∃ built, built.length = count ∧ result.1 = .ok (0, (slotsOf built []).map Slot.pointers) ∧
      Ready result.2 built []

/-- The loop builds the panels of all interfaces left, or ends as `BuildsAll` says. -/
theorem buildLoop_builds (opt : Options) {ifd : List IfData} {count left : ℕ}
    (hifd : ifd.length = maxIfLength) (hcount : count ≤ maxIfLength) {built : List (Owned × Owned)}
    (hbuilt : built.length + left = count) {w : World}
    (h : Ready w built []) :
    Interaction.Always (BuildsAll count)
      (buildLoop opt ifd count left ((slotsOf built []).map Slot.pointers) w) := by
  induction left generalizing built w with
  | zero => exact .inr (.inr ⟨built, hbuilt, rfl, h⟩)
  | succ left ih =>
    have hi : count - (left + 1) = built.length := by omega
    have hroom : built.length < maxIfLength := by omega
    have hset (slot : Slot) (w : World) :
        setEntry ((slotsOf built []).map Slot.pointers) built.length slot.pointers w =
        .pure (.ok ((slotsOf built [slot]).map Slot.pointers), w) := by
      rw [setEntry,
        if_pos (by rw [List.length_map, slotsOf_length (by simpa using hroom.le)]; exact hroom),
        slotsOf_set hroom]
    rw [buildLoop]
    simp only [hi]
    rw [chain_of_eq (entry_eq (slotsOf_getElem_next hroom) w),
      chain_of_eq (entry_eq (List.getElem?_eq_getElem (hifd ▸ hroom)) w), always_chain]
    refine (buildIfPanel_builds opt h (groups_subset built) _).mono ?_
    rintro ⟨_, w'⟩ (⟨rfl, hmemory⟩ | ⟨slot, rfl, howns, hproper⟩ | ⟨pair, rfl, hholding⟩)
    · exact .inl ⟨rfl, hmemory⟩
    · dsimp only
      rw [chain_of_eq (hset slot w')]
      refine .inr (.inl ⟨slotsOf built [slot], slotsOf_length hroom, rfl, ?_, hproper⟩)
      rw [slotsOf_owned, List.flatMap_singleton]
      exact howns
    · dsimp only
      rw [chain_of_eq (hset (.full pair) w'), slotsOf_full]
      refine ih (by rw [List.length_append, List.length_singleton]; omega) ?_
      rw [Ready, panelsOf_append, List.map_append]
      exact hholding

section Loops

variable {built : List (Owned × Owned)} {w : World} {loose : List ℕ}

/-- The panels of an interface can be read. -/
theorem Owns.exists_pair (h : Owns w (panelsOf built) loose) {i : ℕ} (hi : i < built.length) :
    (∃ hs, w.panels.value built[i].1.1 = some hs ∧ hs.spSocket = some built[i].1.2) ∧
      ∃ cs, w.panels.value built[i].2.1 = some cs ∧ cs.spSocket = some built[i].2.2 := by
  have hmem (o : Owned) (ho : o ∈ [built[i].1, built[i].2]) : o ∈ panelsOf built :=
    List.mem_flatMap.mpr ⟨built[i], List.getElem_mem hi, ho⟩
  exact ⟨h.exists_panel (hmem _ List.mem_cons_self),
    h.exists_panel (hmem _ (List.mem_cons_of_mem _ (List.mem_singleton_self _)))⟩

/-- Listening changes no panel. -/
theorem listenLoop_untouched {left : ℕ} (hleft : left ≤ built.length)
    (h : Owns w (panelsOf built) loose) :
    Finishes (fun _ w' => Untouched SysCall.Neutral w w')
      (listenLoop ((slotsOf built []).map Slot.pointers) built.length left) w := by
  induction left generalizing w with
  | zero => exact .pure ⟨rfl, rfl, .refl rfl⟩
  | succ left ih =>
    have hi : built.length - (left + 1) < built.length := by omega
    obtain ⟨-, cs, hcs, -⟩ := h.exists_pair hi
    refine .of_eq (entry_eq (slotsOf_getElem hi []) w) (.of_eq (deref_eq hcs) ?_)
    rw [finishes_sys]
    intro rc
    have hcalled : Untouched SysCall.Neutral w (w.called (.listen cs.spSocket 1) rc) :=
      ⟨rfl, rfl, .called w (by trivial) rc⟩
    refine .ite (fun _ => .pure hcalled) fun _ => ?_
    exact (ih (by omega) (h.called _ rc)).mono fun _ _ hrest => hcalled.trans hrest

/-- Sending changes no panel. -/
theorem sendLoop_untouched (opt : Options) {left : ℕ} (hleft : left ≤ built.length)
    (h : Owns w (panelsOf built) loose) :
    Finishes (fun _ w' => Untouched SysCall.Neutral w w')
      (sendLoop opt ((slotsOf built []).map Slot.pointers) built.length left) w := by
  induction left generalizing w with
  | zero => exact .pure ⟨rfl, rfl, .refl rfl⟩
  | succ left ih =>
    have hi : built.length - (left + 1) < built.length := by omega
    obtain ⟨⟨hs, hhs, -⟩, cs, hcs, -⟩ := h.exists_pair hi
    refine .of_eq (entry_eq (slotsOf_getElem hi []) w)
      (.of_eq (deref_eq hcs) (.of_eq (deref_eq hhs) ?_))
    rw [finishes_sys]
    intro rc
    have hcalled : Untouched SysCall.Neutral w
        (w.called (.sendto hs.spSocket (announceMsg opt cs.spBind.sinAddr) hs.spDest) rc) :=
      ⟨rfl, rfl, .called w (by trivial) rc⟩
    refine .ite (fun _ => .pure hcalled) fun _ => ?_
    exact (ih (by omega) (h.called _ rc)).mono fun _ _ hrest => hcalled.trans hrest

/-- Collecting the sockets changes nothing. -/
theorem fdSetLoop_eq {left : ℕ} (hleft : left ≤ built.length) (h : Owns w (panelsOf built) loose) :
    ∃ sockets, fdSetLoop ((slotsOf built []).map Slot.pointers) built.length left w =
      .pure (.ok sockets, w) := by
  induction left with
  | zero => exact ⟨[], rfl⟩
  | succ left ih =>
    have hi : built.length - (left + 1) < built.length := by omega
    obtain ⟨-, cs, hcs, -⟩ := h.exists_pair hi
    obtain ⟨sockets, hrest⟩ := ih (by omega)
    refine ⟨cs.spSocket :: sockets, ?_⟩
    rw [fdSetLoop, chain_of_eq (entry_eq (slotsOf_getElem hi []) w), Slot.pointers, Slot.full]
    simp only [Option.map_some]
    rw [chain_of_eq (deref_eq hcs), chain_of_eq hrest]
    rfl

end Loops

section Accept

variable {built : List (Owned × Owned)} {w : World}

/-- The two panels of any interfaces are different. -/
theorem Owns.pair_ne {loose : List ℕ} (h : Owns w (panelsOf built) loose)
    {pair other : Owned × Owned} (hpair : pair ∈ built) (hother : other ∈ built) :
    pair.1.1 ≠ other.2.1 := by
  have hnodup := h.panels.nodup
  rw [panelsOf, List.map_flatMap, List.nodup_flatMap] at hnodup
  by_cases heq : pair = other
  · rw [← heq]
    have hboth := hnodup.1 pair hpair
    simp only [List.map_cons, List.map_nil, List.nodup_cons, List.mem_singleton] at hboth
    exact hboth.1
  · have : Std.Symm (Function.onFun List.Disjoint fun pair : Owned × Owned =>
        List.map Prod.fst [pair.1, pair.2]) :=
      ⟨fun _ _ h _ hleft hright => h hright hleft⟩
    have hdisjoint := hnodup.2.forall hpair hother heq
    exact fun h =>
      hdisjoint List.mem_cons_self (h ▸ List.mem_cons_of_mem _ (List.mem_singleton_self _))

/-- A socket that was created belongs to no panel. -/
theorem Owns.newSocket {owned : List Owned} (h : Owns w owned []) :
    Owns { w with sockets := w.sockets.acquire () } owned [w.sockets.next] where
  panels := h.panels
  sockets := by
    have hsockets := h.sockets.acquire ()
    rw [List.append_nil] at hsockets
    exact hsockets.perm (List.perm_append_singleton _ _).symm
  spSocket := h.spSocket

/-- Accepting gives one more socket, or none. -/
theorem acceptOn_ready {pair : Owned × Owned} (hpair : pair ∈ built) (h : Ready w built []) :
    Finishes (fun socket w' => Ready w' built socket.toList) (acceptOn (some pair.2.1)) w := by
  have hmem : pair.2 ∈ panelsOf built :=
    List.mem_flatMap.mpr ⟨pair, hpair, List.mem_cons_of_mem _ (List.mem_singleton_self _)⟩
  obtain ⟨cs, hcs, -⟩ := h.owns.exists_panel hmem
  refine .of_eq (deref_eq hcs) ?_
  rw [finishes_sys]
  intro reply
  have hproper : Proper (w.called (.accept cs.spSocket) reply).calls :=
    h.proper.makes (.called w (by trivial) reply)
  cases reply with
  | none => exact .pure ⟨h.owns.called (.accept cs.spSocket) none, h.grouped, hproper⟩
  | some addr =>
    have hcs' : (w.called (.accept cs.spSocket) (some addr)).panels.value pair.2.1 = some cs := hcs
    have htouched := touched_modify (f := fun panel => { panel with spDest := addr }) hcs' rfl
    refine .of_eq (assign_eq hcs' _) ⟨_, rfl, (htouched.owns (h.owns.called _ _)).newSocket,
      fun o ho => ?_, hproper⟩
    obtain ⟨other, hother, rfl⟩ := List.mem_map.mp ho
    obtain ⟨panel, hpanel, hsupported⟩ := h.grouped _ ho
    exact ⟨panel, (htouched.others _ (h.owns.pair_ne hother hpair)).trans hpanel, hsupported⟩

/-- The loop accepts on the first interface that is ready. -/
theorem acceptLoop_ready (ready : List ℕ) {left : ℕ} (hleft : left ≤ built.length)
    (h : Ready w built []) :
    Finishes (fun socket w' => Ready w' built socket.toList)
      (acceptLoop ((slotsOf built []).map Slot.pointers) built.length ready left) w := by
  induction left with
  | zero => exact .pure h
  | succ left ih =>
    have hi : built.length - (left + 1) < built.length := by omega
    obtain ⟨-, cs, hcs, hsocket⟩ := h.owns.exists_pair hi
    refine .of_eq (entry_eq (slotsOf_getElem hi []) w) (.of_eq (deref_eq hcs) ?_)
    rw [hsocket]
    exact .ite (fun _ => acceptOn_ready (List.getElem_mem hi) h) fun _ => ih (by omega)

end Accept

/-- What `LeaveMulticastGroup` can do on a panel that joined: fail because the system does, or
leave. -/
def Leaves (w : World) (o : Owned) (result : Except Halt Int × World) : Prop :=
  ∃ socket group interface,
    (result.1 = .ok socketError ∧
        result.2 = w.called (.setsockopt socket (.dropMembership group interface)) socketError) ∨
      ∃ rc, rc ≠ socketError ∧ result.1 = .ok rc ∧
        Touched o.1 (w.called (.setsockopt socket (.dropMembership group interface)) rc) result.2 ∧
        result.2.calls = (w.called (.setsockopt socket (.dropMembership group interface)) rc).calls

/-- `LeaveMulticastGroup` ends in one of the ways that `Leaves` lists. -/
theorem leaveMulticastGroup_leaves {w : World} {o : Owned} (h : Grouped w o)
    (ifaddr : Option String) :
    Interaction.Always (Leaves w o) (leaveMulticastGroup (some o.1) ifaddr w) := by
  obtain ⟨panel, hpanel, hsupported⟩ := h
  rw [leaveMulticastGroup, chain_of_eq (deref_eq hpanel), if_pos hsupported, always_sys]
  intro rc
  refine always_ite (fun hrc => ⟨_, _, _, .inl ⟨rfl, by rw [hrc]⟩⟩) fun hrc => ?_
  have hcalled :
      (w.called (.setsockopt panel.spSocket
        (.dropMembership panel.spDest (membership panel ifaddr)))
      rc).panels.value o.1 = some panel := hpanel
  rw [chain_of_eq (assign_eq hcalled _)]
  exact ⟨_, _, _, .inr ⟨rc, hrc, rfl, touched_modify hcalled rfl, rfl⟩⟩

section Cleanup

variable {w : World} {owned groups : List Owned} {loose : List ℕ} {o : Owned}

/-- A step that touches no panel keeps what is held. -/
theorem Holding.untouched {w' : World} (h : Holding w owned groups loose)
    (hw : Untouched SysCall.Neutral w w') :
    Holding w' owned groups loose where
  owns := hw.owns h.owns
  grouped o hmem := by
    obtain ⟨panel, hpanel, hsupported⟩ := h.grouped o hmem
    exact ⟨panel, hw.panels ▸ hpanel, hsupported⟩
  proper := h.proper.makes (hw.calls.mono fun _ => SysCall.Neutral.harmless)

/-- Once a panel outside the group is freed, the others are still held. -/
theorem Holding.without (h : Holding w (o :: owned) groups loose) (hsub : groups ⊆ owned) :
    Holding (w.without o) owned groups loose := by
  refine ⟨h.owns.without, fun other hmem => ?_, h.proper⟩
  obtain ⟨panel, hpanel, hsupported⟩ := h.grouped other hmem
  exact ⟨panel, (h.owns.release_value (hsub hmem)).trans hpanel, hsupported⟩

/-- Once a panel has left the group, it is held without its membership. -/
theorem Holding.left {w' : World} {socket : Socket} {group : SockAddr} {interface : Membership}
    {rc : Int} (h : Holding w (o :: owned) groups loose) (hsub : groups ⊆ owned)
    (hrc : rc ≠ socketError)
    (htouched : Touched o.1 (w.called (.setsockopt socket (.dropMembership group interface)) rc) w')
    (hcalls : w'.calls =
      (w.called (.setsockopt socket (.dropMembership group interface)) rc).calls) :
    Holding w' (o :: owned) groups loose := by
  have howns := h.owns.called (.setsockopt socket (.dropMembership group interface)) rc
  refine ⟨htouched.owns howns, fun other hmem => ?_, ?_⟩
  · obtain ⟨panel, hpanel, hsupported⟩ := h.grouped other hmem
    exact ⟨panel, (htouched.others _ (h.owns.ne_first (hsub hmem))).trans hpanel, hsupported⟩
  · rw [hcalls]
    refine h.proper.append ?_ ?_ ?_
    · simp [SysCall.Enumerates, SysCall.AsksName]
    · rintro ⟨_, _, _, hmem⟩
      cases List.mem_singleton.mp hmem
      exact hrc rfl
    · simp [NoMemory]

end Cleanup

end VirtualFirmware.Discovery
