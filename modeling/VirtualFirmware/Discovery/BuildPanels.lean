import VirtualFirmware.Discovery.Enumeration
import VirtualFirmware.Discovery.Slots

/-!
# Building the panels of `announce`

`buildIfPanel` makes two panels for an interface, and whatever it made is found in the entry when it
fails. It succeeds only if the first panel has a destination of a family for which a membership can
be formed, so that leaving the group later depends on the system alone.
-/

namespace VirtualFirmware.Discovery

open Library

/-- The group could not be left on some interface. -/
def LeaveFailed (calls : List (Sigma SysReply)) : Prop :=
  ∃ socket group interface, ⟨.setsockopt socket (.dropMembership group interface), socketError⟩ ∈
    calls

/-- There was no memory for a panel. -/
def NoMemory (calls : List (Sigma SysReply)) : Prop := ⟨.malloc, false⟩ ∈ calls

/-- None of what `announce` cannot cope with happened. -/
structure Proper (calls : List (Sigma SysReply)) : Prop where
  fits : ¬ Overfull calls
  inhabited : ¬ Deserted calls
  leaves : ¬ LeaveFailed calls
  memory : ¬ NoMemory calls

/-- There was no memory for a panel, and nothing else was wrong. -/
def OutOfMemory (calls : List (Sigma SysReply)) : Prop :=
  NoMemory calls ∧ ¬ Overfull calls ∧ ¬ LeaveFailed calls

section Calls

variable {calls more : List (Sigma SysReply)}

/-- Calls that enumerate nothing do not change whether there were too many interfaces. -/
theorem overfull_append (h : ∀ call ∈ more, ¬ call.1.Enumerates) : Overfull (calls ++ more) ↔
      Overfull calls := by
  have hifaddrs (ifaddrs : List IfAddr) : ⟨.getifaddrs, some ifaddrs⟩ ∉ more :=
    fun hmem => h _ hmem (.inl rfl)
  have hname (addr : SockAddr) : ⟨.getnameinfo addr, none⟩ ∉ more :=
    fun hmem => h _ hmem (.inr trivial)
  simp only [Overfull, Named, List.mem_append, hifaddrs, hname, or_false]

/-- Nor do they change whether there was no interface. -/
theorem deserted_append (h : ∀ call ∈ more, ¬ call.1.Enumerates) : Deserted (calls ++ more) ↔
      Deserted calls := by
  have hifaddrs (ifaddrs : List IfAddr) : ⟨.getifaddrs, some ifaddrs⟩ ∉ more :=
    fun hmem => h _ hmem (.inl rfl)
  simp only [Deserted, List.mem_append, hifaddrs, or_false]

/-- Leaving the group has failed among all calls if it has among the first or the later ones. -/
theorem leaveFailed_append : LeaveFailed (calls ++ more) ↔
      LeaveFailed calls ∨ LeaveFailed more := by
  simp only [LeaveFailed, List.mem_append, exists_or]

/-- Further calls with results that `announce` can cope with. -/
theorem Proper.append (h : Proper calls) (henumerates : ∀ call ∈ more, ¬ call.1.Enumerates)
    (hleaves : ¬ LeaveFailed more) (hmemory : ¬ NoMemory more) : Proper (calls ++ more) where
  fits := by
    rw [overfull_append henumerates]
    exact h.fits
  inhabited := by
    rw [deserted_append henumerates]
    exact h.inhabited
  leaves := by
    rw [leaveFailed_append]
    exact not_or.mpr ⟨h.leaves, hleaves⟩
  memory := by
    rw [NoMemory, List.mem_append]
    exact not_or.mpr ⟨h.memory, hmemory⟩

/-- Calls whose results `announce` can cope with. -/
def SysCall.Harmless : SysCall → Prop
  | .malloc => False
  | .getifaddrs => False
  | .getnameinfo _ => False
  | .setsockopt _ (.dropMembership _ _) => False
  | _ => True

/-- A call that decides nothing is harmless. -/
theorem SysCall.Neutral.harmless {op : SysCall} (h : op.Neutral) : op.Harmless := by
  cases op with
  | setsockopt socket option => cases option <;> trivial
  | _ => trivial

/-- Harmless calls keep a run proper. -/
theorem Proper.makes {w w' : World} (h : Proper w.calls) (hmakes : Makes SysCall.Harmless w w') :
    Proper w'.calls := by
  obtain ⟨more, hcalls, hharmless⟩ := hmakes
  rw [hcalls]
  refine h.append ?_ ?_ fun hmem => hharmless _ hmem
  · rintro ⟨op, reply⟩ hmem (rfl | hname)
    · exact hharmless _ hmem
    · have hop := hharmless _ hmem
      cases op <;> first | exact hname | exact hop
  · rintro ⟨socket, group, interface, hmem⟩
    exact hharmless _ hmem

/-- The two calls that create a panel keep a run proper, if there is memory. -/
theorem Proper.created (h : Proper calls) (af : AddrFamily) (type : SockType) (proto : Protocol)
    (created : Bool) :
    Proper (calls ++ [⟨.malloc, true⟩, ⟨.socket af type proto, created⟩]) := by
  refine h.append ?_ ?_ ?_
  · simp [SysCall.Enumerates, SysCall.AsksName]
  · simp [LeaveFailed]
  · simp [NoMemory]

/-- The calls that fail to create one for want of memory. -/
theorem Proper.outOfMemory (h : Proper calls) (af : AddrFamily) (type : SockType) (proto : Protocol)
    (created : Bool) :
    OutOfMemory (calls ++ [⟨.malloc, false⟩, ⟨.socket af type proto, created⟩]) := by
  refine ⟨List.mem_append_right _ List.mem_cons_self, ?_, ?_⟩
  · rw [overfull_append (by simp [SysCall.Enumerates, SysCall.AsksName])]
    exact h.fits
  · rw [leaveFailed_append]
    exact not_or.mpr ⟨h.leaves, by simp [LeaveFailed]⟩

end Calls

/-- The destination of a panel is of a family for which a membership can be formed. -/
def Grouped (w : World) (o : Owned) : Prop :=
  ∃ panel, w.panels.value o.1 = some panel ∧ panel.spDest.saFamily.Supported

/-- What is owned, with the panels that joined the group, in a run where nothing went wrong. -/
structure Holding (w : World) (owned groups : List Owned) (loose : List ℕ) : Prop where
  owns : Owns w owned loose
  grouped : ∀ o ∈ groups, Grouped w o
  proper : Proper w.calls

section Holding

variable {A B : Type} {w : World} {owned groups : List Owned} {loose : List ℕ} {o : Owned}
  {condition : Except Halt B × World → Prop}

/-- The last panel is none of the others. -/
theorem Owns.ne_last (h : Owns w (owned ++ [o]) loose) {other : Owned} (hmem : other ∈ owned) :
    other.1 ≠ o.1 := by
  have hnodup := h.panels.nodup
  rw [List.map_append] at hnodup
  exact (List.nodup_append.mp hnodup).2.2 _ (List.mem_map_of_mem hmem) _ (List.mem_singleton_self _)

/-- What follows a use of the last panel may rely on what was held before. -/
theorem Holding.uses {x : DiscoveryM A} {next : A → DiscoveryM B}
    (h : Holding w (owned ++ [o]) groups loose) (hsub : groups ⊆ owned) (hx : Uses o.1 x)
    (hnext : ∀ value w', Holding w' (owned ++ [o]) groups loose →
      Interaction.Always condition (next value w')) :
    Interaction.Always condition ((x >>= next) w) := by
  have hlast : o ∈ owned ++ [o] := List.mem_append_right _ (List.mem_singleton_self o)
  refine hx.always_bind h.owns hlast fun value w' htouched => ?_
  have hproper := h.proper.makes (htouched.calls.mono fun _ => SysCall.Neutral.harmless)
  refine hnext value w' ⟨htouched.owns h.owns, fun other hmem => ?_, hproper⟩
  obtain ⟨panel, hpanel, hsupported⟩ := h.grouped other hmem
  exact ⟨panel, (htouched.others _ (h.owns.ne_last (hsub hmem))).trans hpanel, hsupported⟩

/-- Creating a panel fails for want of memory, fails with nothing more held, or succeeds with one
more panel held. -/
theorem Holding.creates {next : PanelPtr → DiscoveryM B} (h : Holding w owned groups loose)
    (hsub : groups ⊆ owned) (af : AddrFamily) (type : SockType) (proto : Protocol)
    (hnull : ∀ w', OutOfMemory w'.calls → condition (.error (.fault .nullPanel), w'))
    (hnone : ∀ w', Holding w' owned groups loose → Interaction.Always condition (next none w'))
    (hsome : ∀ o w', Holding w' (owned ++ [o]) groups loose →
      Interaction.Always condition (next (some o.1) w')) :
    Interaction.Always condition ((createPanel af type proto >>= next) w) := by
  rw [always_chain]
  refine (createPanel_creates h.owns af type proto).mono ?_
  rintro ⟨_, w'⟩ (⟨rfl, created, hcalls⟩ | ⟨hothers, hcreated⟩)
  · exact hnull w' (hcalls ▸ h.proper.outOfMemory af type proto created)
  · have hgrouped : ∀ other ∈ groups, Grouped w' other := by
      intro other hmem
      obtain ⟨panel, hpanel, hsupported⟩ := h.grouped other hmem
      exact ⟨panel, (hothers other (hsub hmem)).trans hpanel, hsupported⟩
    obtain ⟨rfl, howns, hcalls⟩ | ⟨o, rfl, howns, hcalls⟩ := hcreated
    · exact hnone w' ⟨howns, hgrouped, hcalls ▸ h.proper.created af type proto false⟩
    · exact hsome o w' ⟨howns, hgrouped, hcalls ▸ h.proper.created af type proto true⟩

end Holding

/-- `SetMulticastLoopback` succeeds only on a panel with a destination of a known family. -/
theorem setMulticastLoopback_grouped {w : World} {o : Owned} (h : (w.panels.value o.1).isSome)
    (loopval : Int) :
    Finishes (fun rc w' => Touched o.1 w w' ∧ (rc ≠ socketError → Grouped w' o))
      (setMulticastLoopback (some o.1) loopval) w := by
  obtain ⟨panel, hpanel⟩ := Option.isSome_iff_exists.mp h
  refine .of_eq (deref_eq hpanel) (.ite (fun hfamily => ?_) fun _ =>
    .pure ⟨.refl _ w, fun hrc => absurd rfl hrc⟩)
  rw [finishes_sys]
  intro rc
  have htouched : Touched o.1 w (w.called
      (.setsockopt panel.spSocket (.multicastLoop panel.spDest.saFamily loopval)) rc) :=
    .called o.1 w (by trivial) rc
  have hsupported : panel.spDest.saFamily.Supported := by
    obtain hfamily | hfamily := hfamily <;> rw [hfamily] <;> decide
  exact .ite (fun _ => .pure ⟨htouched, fun hrc => absurd rfl hrc⟩) fun _ =>
    .pure ⟨htouched, fun _ => ⟨panel, hpanel, hsupported⟩⟩

/-- What `buildIfPanel` can do: store through `NULL`, fail with what it made in the entry, or make
both panels. -/
def BuildsPair (owned groups : List Owned) (result : Except Halt (Int × IfPanel) × World) : Prop :=
  (result.1 = .error (.fault .nullPanel) ∧ OutOfMemory result.2.calls) ∨
    (∃ slot : Slot, result.1 = .ok (socketError, slot.pointers) ∧
      Owns result.2 (owned ++ slot.owned) [] ∧
      Proper result.2.calls) ∨
    ∃ pair : Owned × Owned, result.1 = .ok (0, (Slot.full pair).pointers) ∧
      Holding result.2 (owned ++ [pair.1, pair.2]) (groups ++ [pair.1]) []

section Build

variable (opt : Options) {w : World} {owned groups : List Owned} {hs : Owned}

/-- With one panel made, a failure leaves it in the entry. -/
theorem Holding.buildsPair (h : Holding w (owned ++ [hs]) groups []) {rc : Int}
    (hrc : rc = socketError) :
    Interaction.Always (BuildsPair owned groups)
      ((pure (rc, ⟨some hs.1, none⟩) : DiscoveryM (Int × IfPanel)) w) :=
  .inr (.inl ⟨⟨some hs, none⟩, by rw [hrc]; rfl, h.owns, h.proper⟩)

/-- The second panel is made and bound, or it is found in the entry. -/
theorem buildConnection_builds (h : Holding w (owned ++ [hs]) (groups ++ [hs]) [])
    (hsub : groups ⊆ owned) (i : IfData) :
    Interaction.Always (BuildsPair owned groups) (buildConnection opt ⟨some hs.1, none⟩ i w) := by
  have hsub' : groups ++ [hs] ⊆ owned ++ [hs] :=
    List.append_subset.mpr ⟨List.subset_append_of_subset_left _ hsub, List.subset_append_right _ _⟩
  refine h.creates hsub' .inet .stream .tcp (fun w' hmemory => .inl ⟨rfl, hmemory⟩) (fun w' h => ?_)
    fun cs w' h => ?_
  · exact .inr (.inl ⟨⟨some hs, none⟩, rfl, h.owns, h.proper⟩)
  · refine h.uses hsub' (.bindPanel _ _ _) fun rc w'' h => ?_
    rw [List.append_assoc] at h
    by_cases hrc : rc = socketError
    · exact .inr (.inl ⟨⟨some hs, some cs⟩, by rw [hrc]; rfl, h.owns, h.proper⟩)
    · exact .inr (.inr ⟨(hs, cs), by rw [if_neg hrc]; rfl, h⟩)

/-- The first panel joins the group, or the entry has it alone. -/
theorem buildMulticast_builds (h : Holding w (owned ++ [hs]) groups []) (hsub : groups ⊆ owned)
    (i : IfData) :
    Interaction.Always (BuildsPair owned groups) (buildMulticast opt ⟨some hs.1, none⟩ i w) := by
  refine h.uses hsub (.joinMulticastGroup none) fun rc w h => always_ite h.buildsPair fun _ => ?_
  refine h.uses hsub (.setMulticastSendInterface _) fun rc w h =>
    always_ite h.buildsPair fun _ => ?_
  obtain ⟨panel, hpanel, -⟩ :=
    h.owns.exists_panel (List.mem_append_right _ (List.mem_singleton_self hs))
  refine (setMulticastLoopback_grouped (Option.isSome_iff_exists.mpr ⟨panel, hpanel⟩) 1).always_bind
    ?_
  rintro rc w' ⟨htouched, hgrouped⟩
  have hothers : ∀ o ∈ groups, Grouped w' o := by
    intro o hmem
    obtain ⟨panel, hpanel, hsupported⟩ := h.grouped o hmem
    exact ⟨panel, (htouched.others _ (h.owns.ne_last (hsub hmem))).trans hpanel, hsupported⟩
  have howns := htouched.owns h.owns
  have hproper := h.proper.makes (htouched.calls.mono fun _ => SysCall.Neutral.harmless)
  refine always_ite (Holding.buildsPair ⟨howns, hothers, hproper⟩) fun hrc =>
    buildConnection_builds opt ⟨howns, ?_, hproper⟩ hsub i
  exact List.forall_mem_append.mpr ⟨hothers, List.forall_mem_singleton.mpr (hgrouped hrc)⟩

/-- `buildIfPanel` ends in one of the ways that `BuildsPair` lists. -/
theorem buildIfPanel_builds (h : Holding w owned groups []) (hsub : groups ⊆ owned) (i : IfData) :
    Interaction.Always (BuildsPair owned groups) (buildIfPanel opt ⟨none, none⟩ i w) := by
  refine h.creates hsub .inet .dgram .udp (fun w' hmemory => .inl ⟨rfl, hmemory⟩) (fun w' h => ?_)
    fun hs w' h => ?_
  · exact .inr (.inl ⟨.empty, rfl, (List.append_nil owned).symm ▸ h.owns, h.proper⟩)
  · refine h.uses hsub (.bindPanel _ _ _) fun rc w h => always_ite h.buildsPair fun _ => ?_
    refine h.uses hsub (.setDestination _ _) fun rc w h => always_ite h.buildsPair fun _ => ?_
    exact buildMulticast_builds opt h hsub i

end Build

end VirtualFirmware.Discovery
