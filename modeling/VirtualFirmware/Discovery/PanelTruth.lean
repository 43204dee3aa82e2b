import VirtualFirmware.Discovery.PanelFlags
import VirtualFirmware.Discovery.PanelLife

/-!
# Whether a panel's flags tell the truth

A panel says in its flags whether it was bound, has a destination and is a member of a multicast
group, and a call that fails should leave it as it was. `BindPanel` stores the address and sets its
flag before it knows that it succeeds, and `LeaveMulticastGroup` clears the flag that stands for all
memberships. The rest keeps the flags true whatever the system returns.
-/

namespace VirtualFirmware.Discovery

open Library

/-- What is so for a panel: whether its socket was bound, whether a destination was set, and the
memberships in force. -/
structure PanelFacts (K : Type) where
  bound : Bool
  destined : Bool
  joined : List K
deriving DecidableEq, Repr

/-- What is so for a new panel. -/
def PanelFacts.none {K : Type} : PanelFacts K := ⟨false, false, []⟩

section Facts

variable {K : Type} [DecidableEq K] (kernel : SockAddr → Membership → K)

/-- What is so after a system call. `kernel` tells which memberships are the same to the system. -/
def PanelFacts.noted (facts : PanelFacts K) : Sigma SysReply → PanelFacts K
  | ⟨.bind _ _, rc⟩ => { facts with bound := facts.bound || rc ≠ socketError }
  | ⟨.setsockopt _ (.addMembership group interface), rc⟩ =>
    if rc = socketError then facts
    else { facts with joined := kernel group interface :: facts.joined }
  | ⟨.setsockopt _ (.dropMembership group interface), rc⟩ =>
    if rc = socketError then facts
    else { facts with joined := facts.joined.filter (· ≠ kernel group interface) }
  | _ => facts

/-- What is so after a call. -/
def PanelFacts.after (facts : PanelFacts K) (step : PanelStep) : PanelFacts K :=
  match step.op with
  | .setDestination _ _ =>
    { step.calls.foldl (·.noted kernel) facts with
      destined := facts.destined || step.rc ≠ socketError }
  | _ => step.calls.foldl (·.noted kernel) facts

/-- The flags of the panel say what is so. -/
structure Panel.Tells (panel : Panel) (facts : PanelFacts K) : Prop where
  listener : HasFlag panel.spFlags spFListener ↔ facts.bound = true
  sender : HasFlag panel.spFlags spFSender ↔ facts.destined = true
  multicast : HasFlag panel.spFlags spFMulticast ↔ facts.joined ≠ []

/-- The flags and the stored addresses are as they were before the call. -/
structure PanelStep.Unchanged (step : PanelStep) : Prop where
  spFlags : step.after.spFlags = step.before.spFlags
  spBind : step.after.spBind = step.before.spBind
  spDest : step.after.spDest = step.before.spDest

/-- The flags say what is so after the call, and if it failed it left the panel as it was. -/
structure PanelStep.Truthful (facts : PanelFacts K) (step : PanelStep) : Prop where
  tells : step.after.Tells (facts.after kernel step)
  unchanged : step.rc = socketError → step.Unchanged

/-- Each call is truthful with what is so at that moment. -/
def AllTruthful : PanelFacts K → List PanelStep → Prop
  | _, [] => True
  | facts, step :: steps => step.Truthful kernel facts ∧ AllTruthful (facts.after kernel step) steps

/-- The address that the system resolved in a call. -/
def resolvedIn : Sigma SysReply → Option SockAddr
  | ⟨.getaddrinfo _ _ _ _ _, reply⟩ => reply
  | _ => none

/-- The call is one of `bind`. -/
def bindsIn : Sigma SysReply → Bool
  | ⟨.bind _ _, _⟩ => true
  | _ => false

/-- A `BindPanel` that fails found no address, or the one that was stored, and has bound the socket
before if it got as far as `bind`. A `LeaveMulticastGroup` that succeeds ends the last
membership. -/
def PanelStep.Harmless (facts : PanelFacts K) (step : PanelStep) : Prop :=
  match step.op with
  | .bind _ _ _ => step.rc = socketError →
    (∀ addr ∈ step.calls.filterMap resolvedIn, addr = step.before.spBind) ∧
      (step.calls.any bindsIn → facts.bound = true)
  | .leave _ => step.rc ≠ socketError → (facts.after kernel step).joined = []
  | _ => True

/-- Each call is harmless with what is so at that moment. -/
def AllHarmless : PanelFacts K → List PanelStep → Prop
  | _, [] => True
  | facts, step :: steps => step.Harmless kernel facts ∧ AllHarmless (facts.after kernel step) steps

end Facts

/-- `SP_F_LISTENER` is one bit. -/
theorem spFListener_eq : spFListener = bitFlag 1 := rfl

/-- `SP_F_SENDER` is one bit. -/
theorem spFSender_eq : spFSender = bitFlag 2 := rfl

/-- `SP_F_MULTICAST` is one bit. -/
theorem spFMulticast_eq : spFMulticast = bitFlag 4 := rfl

section Tells

variable {K : Type} {panel changed : Panel} {facts : PanelFacts K} (h : panel.Tells facts)

include h

/-- The listener flag is true once the socket was bound. -/
theorem Panel.Tells.listening (hflags : changed.spFlags = panel.spFlags ||| spFListener) :
    changed.Tells { facts with bound := true } where
  listener := by
    rw [hflags, spFListener_eq, hasFlag_set (by decide) (by decide)]
    simp
  sender := by
    rw [hflags, ← h.sender, spFListener_eq, spFSender_eq, hasFlag_set (by decide) (by decide)]
    simp
  multicast := by
    rw [hflags, ← h.multicast, spFListener_eq, spFMulticast_eq, hasFlag_set (by decide) (by decide)]
    simp

/-- The sender flag is true once a destination was set. -/
theorem Panel.Tells.sending (hflags : changed.spFlags = panel.spFlags ||| spFSender) :
    changed.Tells { facts with destined := true } where
  listener := by
    rw [hflags, ← h.listener, spFSender_eq, spFListener_eq, hasFlag_set (by decide) (by decide)]
    simp
  sender := by
    rw [hflags, spFSender_eq, hasFlag_set (by decide) (by decide)]
    simp
  multicast := by
    rw [hflags, ← h.multicast, spFSender_eq, spFMulticast_eq, hasFlag_set (by decide) (by decide)]
    simp

/-- The multicast flag is true once a membership is in force. -/
theorem Panel.Tells.joining (hflags : changed.spFlags = panel.spFlags ||| spFMulticast)
    (membership : K) :
    changed.Tells { facts with joined := membership :: facts.joined } where
  listener := by
    rw [hflags, ← h.listener, spFMulticast_eq, spFListener_eq, hasFlag_set (by decide) (by decide)]
    simp
  sender := by
    rw [hflags, ← h.sender, spFMulticast_eq, spFSender_eq, hasFlag_set (by decide) (by decide)]
    simp
  multicast := by
    rw [hflags, spFMulticast_eq, hasFlag_set (by decide) (by decide)]
    simp

/-- The cleared multicast flag is true exactly if no membership is in force. -/
theorem Panel.Tells.leaving_iff (hflags : changed.spFlags = panel.spFlags &&& ~~~ spFMulticast)
    (rest : List K) :
    changed.Tells { facts with joined := rest } ↔ rest = [] := by
  have hcleared : ¬ HasFlag changed.spFlags spFMulticast := by
    rw [hflags, spFMulticast_eq, hasFlag_clear (by decide) (by decide)]
    simp
  constructor
  · intro htells
    by_contra hne
    exact hcleared (htells.multicast.mpr hne)
  · rintro rfl
    refine ⟨?_, ?_, iff_of_false hcleared fun hne => hne rfl⟩
    · rw [hflags, ← h.listener, spFMulticast_eq, spFListener_eq,
        hasFlag_clear (by decide) (by decide)]
      simp
    · rw [hflags, ← h.sender, spFMulticast_eq, spFSender_eq, hasFlag_clear (by decide) (by decide)]
      simp

end Tells

section Steps

variable {K : Type} [DecidableEq K] (kernel : SockAddr → Membership → K) {facts : PanelFacts K}
  {step : PanelStep}

/-- A call that fails before it changes anything is truthful and harmless. -/
theorem PanelStep.truthful_iff_of_quiet (hcalls : step.calls.foldl (·.noted kernel) facts = facts)
    (hresolved : step.calls.filterMap resolvedIn = []) (hbinds : step.calls.any bindsIn = false)
    (hrc : step.rc = socketError) (hafter : step.after = step.before)
    (htells : step.before.Tells facts) :
    step.Truthful kernel facts ↔ step.Harmless kernel facts := by
  have hfacts : facts.after kernel step = facts := by
    unfold PanelFacts.after
    split
    · simp [hcalls, hrc]
    · exact hcalls
  have hunchanged : step.Unchanged := ⟨by rw [hafter], by rw [hafter], by rw [hafter]⟩
  refine iff_of_true ⟨by rwa [hfacts, hafter], fun _ => hunchanged⟩ ?_
  unfold PanelStep.Harmless
  split
  · intro _
    simp [hresolved, hbinds]
  · exact fun hok => absurd hrc hok
  · trivial

/-- Whatever a call can do, it is truthful exactly if it is harmless. -/
theorem PanelStep.truthful_iff (h : step.op.Yields step.before step.calls step.rc step.after)
    (htells : step.before.Tells facts) : step.Truthful kernel facts ↔
      step.Harmless kernel facts := by
  obtain ⟨op, before, calls, rc, after⟩ := step
  dsimp only at h htells
  cases h with
  | refused => exact truthful_iff_of_quiet kernel rfl rfl rfl rfl rfl htells
  | unresolved => exact truthful_iff_of_quiet kernel rfl rfl rfl rfl rfl htells
  | notJoined => exact truthful_iff_of_quiet kernel rfl rfl rfl rfl rfl htells
  | notLeft => exact truthful_iff_of_quiet kernel rfl rfl rfl rfl rfl htells
  | notReusable addr svc reuse ai =>
    change _ ↔ (socketError = socketError → (∀ addr ∈ [ai], addr = before.spBind) ∧
      (false = true → _))
    constructor
    · intro htruthful _
      exact ⟨List.forall_mem_singleton.mpr (htruthful.unchanged rfl).spBind, Bool.noConfusion⟩
    · intro hharmless
      have haddr := (hharmless rfl).1 ai (List.mem_singleton_self ai)
      exact ⟨⟨htells.listener, htells.sender, htells.multicast⟩, fun _ => ⟨rfl, haddr, rfl⟩⟩
  | bound addr svc reuse ai option =>
    change _ ↔ (rc = socketError → (∀ addr ∈ [ai], addr = before.spBind) ∧
      (true = true → facts.bound = true))
    have hlistener : before.spFlags ||| spFListener = before.spFlags ↔ facts.bound = true := by
      rw [← htells.listener, spFListener_eq, set_eq_self_iff (by decide)]
    constructor
    · intro htruthful hrc
      have hunchanged := htruthful.unchanged hrc
      exact ⟨List.forall_mem_singleton.mpr hunchanged.spBind,
        fun _ => hlistener.mp hunchanged.spFlags⟩
    · intro hharmless
      -- the socket is bound now or was bound before
      have hbound : (facts.bound || decide (rc ≠ socketError)) = true := by
        by_cases hrc : rc = socketError
        · rw [(hharmless hrc).2 rfl, Bool.true_or]
        · rw [decide_eq_true hrc, Bool.or_true]
      refine ⟨?_, fun hrc => ⟨hlistener.mpr ((hharmless hrc).2 rfl), ?_, rfl⟩⟩
      · change Panel.Tells _ { facts with bound := facts.bound || decide (rc ≠ socketError) }
        rw [hbound]
        exact htells.listening rfl
      · exact (hharmless hrc).1 ai (List.mem_singleton_self ai)
  | destined addr svc ai =>
    refine iff_of_true ⟨?_, fun hrc => Int.noConfusion hrc⟩ trivial
    change Panel.Tells _ { facts with destined := facts.destined || true }
    rw [Bool.or_true]
    exact htells.sending rfl
  | joined ifaddr hrc =>
    refine iff_of_true ⟨?_, fun hfailed => absurd hfailed hrc⟩ trivial
    change Panel.Tells _ (if rc = socketError then facts else _)
    rw [if_neg hrc]
    exact htells.joining rfl _
  | left ifaddr hrc =>
    constructor
    · intro htruthful _
      have htold := htruthful.tells
      change Panel.Tells _ (if rc = socketError then facts else _) at htold
      change (if rc = socketError then facts else _ : PanelFacts K).joined = []
      rw [if_neg hrc] at htold ⊢
      exact (htells.leaving_iff rfl _).mp htold
    · intro hharmless
      have hlast := hharmless hrc
      refine ⟨?_, fun hfailed => absurd hfailed hrc⟩
      change (if rc = socketError then facts else _ : PanelFacts K).joined = [] at hlast
      change Panel.Tells _ (if rc = socketError then facts else _)
      rw [if_neg hrc] at hlast ⊢
      exact (htells.leaving_iff rfl _).mpr hlast

/-- Calls on a panel whose flags tell the truth go on doing so exactly if each of them is
harmless. -/
theorem runOps_truthful_iff (ops : List PanelOp) {w : World} {p : ℕ} {panel : Panel}
    (h : w.panels.value p = some panel) (facts : PanelFacts K) :
    Finishes (fun steps _ => panel.Tells facts →
      (AllTruthful kernel facts steps ↔ AllHarmless kernel facts steps))
      (runOps (some p) ops) w := by
  induction ops generalizing w panel facts with
  | nil => exact .pure fun _ => Iff.rfl
  | cons op ops ih =>
    refine (runOp_notes h op).bind ?_
    rintro step w' ⟨rfl, hpanel, hyields⟩
    refine (ih hpanel (facts.after kernel step)).bind fun steps w'' hrest => .pure fun htells => ?_
    rw [AllTruthful, AllHarmless, step.truthful_iff kernel hyields htells]
    exact and_congr_right fun hharmless =>
      hrest ((step.truthful_iff kernel hyields htells).mpr hharmless).tells

end Steps

/-- A new panel has no other flag than `SP_F_VALID`. -/
theorem createPanel_spFlags (af : AddrFamily) (type : SockType) (proto : Protocol) (w : World) :
    Interaction.Always (fun created => ∀ p, created.1 = .ok (some p) →
        ∃ panel, created.2.panels.value p = some panel ∧ panel.spFlags = spFValid)
      (createPanel af type proto w) := by
  refine always_createPanel (fun reply sockets p hp => ?_) (fun p hp => ?_) fun p hp => ?_
  · cases hp
  · cases hp
  · cases hp
    exact ⟨_, w.made_value, UInt16.zero_or⟩

/-- The flags of a new panel tell the truth. -/
theorem Panel.Tells.none {K : Type} {panel : Panel} (h : panel.spFlags = spFValid) :
    panel.Tells (PanelFacts.none : PanelFacts K) := by
  refine ⟨iff_of_false ?_ Bool.noConfusion, iff_of_false ?_ Bool.noConfusion,
    iff_of_false ?_ fun hne => hne rfl⟩
  · rw [h]
    decide
  · rw [h]
    decide
  · rw [h]
    decide

/-- On a panel made by `CreatePanel`, for all calls of the four functions and all outcomes of the
system calls: the flags say after every call what is so, and every call that fails leaves the flags
and the addresses as they were, if and only if each `BindPanel` that fails found no address or the
one that was stored, after an earlier successful `bind` if it got as far, and each
`LeaveMulticastGroup` that succeeds ends the last membership. -/
theorem flags_truthful_iff {K : Type} [DecidableEq K] (kernel : SockAddr → Membership → K)
    (af : AddrFamily) (type : SockType) (proto : Protocol) (ops : List PanelOp) (w : World) :
    Interaction.Always (fun created => ∀ p, created.1 = .ok (some p) →
        Finishes (fun steps _ => AllTruthful kernel .none steps ↔ AllHarmless kernel .none steps)
          (runOps (some p) ops) created.2)
      (createPanel af type proto w) := by
  refine (createPanel_spFlags af type proto w).mono fun created hcreated p hp => ?_
  obtain ⟨panel, hpanel, hflags⟩ := hcreated p hp
  exact (runOps_truthful_iff kernel ops hpanel .none).mono fun steps _ hsteps =>
    hsteps (.none hflags)

/-- Addresses are resolved to a multicast group, and every call succeeds. -/
def groupReply : (op : SysCall) → SysReply op
  | .getaddrinfo _ _ _ _ _ => some ⟨.inet, 0x010000ef, 0x8813⟩
  | op => op.success

/-- A destination is set and its group joined, with every call succeeding. -/
theorem flags_truthful_joined :
    ∃ w steps, (createPanel .inet .dgram .udp .initial).resolve groupReply = (.ok (some 0), w) ∧
      ((runOps (some 0) [.setDestination (some "239.0.0.1") "5000", .join none] w).resolve
        groupReply).1 = .ok steps ∧
      AllTruthful Prod.mk .none steps := by
  have hcreated := (flags_truthful_iff Prod.mk .inet .dgram .udp
    [.setDestination (some "239.0.0.1") "5000", .join none] .initial).resolve groupReply
  obtain ⟨steps, hsteps, htruthful⟩ := (hcreated 0 rfl).resolve groupReply
  refine ⟨_, steps, rfl, hsteps, htruthful.mpr ?_⟩
  cases Except.ok.inj hsteps
  exact ⟨trivial, trivial, trivial⟩

/-- Every call succeeds but `bind`. -/
def bindFails : (op : SysCall) → SysReply op
  | .bind _ _ => socketError
  | op => op.success

/-- A group is joined on two interfaces and left on one of them. -/
def joinTwiceLeaveOnce : List PanelOp :=
  [.setDestination (some "239.0.0.1") "5000", .join (some "10.0.0.1"), .join (some "10.0.0.2"),
    .leave (some "10.0.0.1")]

/-- A panel whose `bind` failed says that it listens, and one that is still a member on one of two
interfaces says that it is a member of no group. -/
theorem flags_tell_untruth :
    (∃ w steps, (createPanel .inet .dgram .udp .initial).resolve bindFails = (.ok (some 0), w) ∧
        ((runOps (some 0) [.bind (some "10.0.0.1") "5000" 1] w).resolve bindFails).1 = .ok steps ∧
        ¬ AllTruthful Prod.mk .none steps) ∧
      ∃ w steps, (createPanel .inet .dgram .udp .initial).resolve groupReply = (.ok (some 0), w) ∧
        ((runOps (some 0) joinTwiceLeaveOnce w).resolve groupReply).1 = .ok steps ∧
        ¬ AllTruthful Prod.mk .none steps := by
  refine ⟨⟨_, _, rfl, rfl, fun htruthful => ?_⟩, _, _, rfl, rfl, fun htruthful => ?_⟩
  · exact absurd (htruthful.1.tells.listener.mp (by decide)) (by decide)
  · exact absurd (htruthful.2.2.2.1.tells.multicast.mpr (by decide)) (by decide)

end VirtualFirmware.Discovery
