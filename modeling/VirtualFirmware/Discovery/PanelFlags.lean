import VirtualFirmware.Discovery.PanelUse
import VirtualFirmware.Library.Flags

/-!
# What a panel's flags say

A panel says in its flags whether it was bound, has a destination and is a member of a multicast
group. What is really so follows from the calls that were made: here it is kept beside the panel,
and each of the four functions that set flags is described by the calls it can make and the panel it
leaves after them.
-/

namespace VirtualFirmware.Discovery

open Library

/-- A call of one of the functions that set flags. -/
inductive PanelOp where
  | bind (addr : Option String) (svc : String) (reuse : Int)
  | setDestination (addr : Option String) (svc : String)
  | join (ifaddr : Option String)
  | leave (ifaddr : Option String)
deriving DecidableEq, Repr

/-- Make the call. -/
def PanelOp.call (p : PanelPtr) : PanelOp → DiscoveryM Int
  | .bind addr svc reuse => bindPanel p addr svc reuse
  | .setDestination addr svc => Discovery.setDestination p addr svc
  | .join ifaddr => joinMulticastGroup p ifaddr
  | .leave ifaddr => leaveMulticastGroup p ifaddr

/-- A call that was made: the panel before and after it, the system calls in it with their results,
and what it returned. -/
structure PanelStep where
  op : PanelOp
  before : Panel
  calls : List (Sigma SysReply)
  rc : Int
  after : Panel

/-- The system calls so far. -/
def callsSoFar : DiscoveryM (List (Sigma SysReply)) := fun w => .pure (.ok w.calls, w)

/-- Make a call and note what it did. -/
def runOp (p : PanelPtr) (op : PanelOp) : DiscoveryM PanelStep := do
  let before ← deref p
  let earlier ← callsSoFar
  let rc ← op.call p
  let after ← deref p
  let calls ← callsSoFar
  return { op, before, calls := calls.drop earlier.length, rc, after }

/-- Make calls one after another. -/
def runOps (p : PanelPtr) : List PanelOp → DiscoveryM (List PanelStep)
  | [] => return []
  | op :: ops => do
    let step ← runOp p op
    return step :: (← runOps p ops)

/-- Resolving an address for a panel. -/
def Panel.resolving (panel : Panel) (addr : Option String) (svc : String)
    (reply : Option SockAddr) :
    Sigma SysReply :=
  ⟨.getaddrinfo addr svc panel.spFamily panel.spSocktype panel.spProtocol, reply⟩

/-- Setting an option of a panel's socket. -/
def Panel.setting (panel : Panel) (option : SockOpt) (rc : Int) : Sigma SysReply :=
  ⟨.setsockopt panel.spSocket option, rc⟩

/-- Binding a panel's socket. -/
def Panel.binding (panel : Panel) (addr : SockAddr) (rc : Int) : Sigma SysReply :=
  ⟨.bind panel.spSocket addr, rc⟩

/-- What a call can do to a panel: the system calls in it, what it returns, and the panel after
it. -/
inductive PanelOp.Yields (before : Panel) : PanelOp → List (Sigma SysReply) → Int → Panel → Prop
  | refused (op : PanelOp) : Yields before op [] socketError before
  | unresolved (op : PanelOp) (addr : Option String) (svc : String) :
      Yields before op [before.resolving addr svc none] socketError before
  | notReusable (addr : Option String) (svc : String) (reuse : Int) (ai : SockAddr) :
      Yields before (.bind addr svc reuse)
        [before.resolving addr svc (some ai), before.setting (.reuseAddr reuse) socketError]
        socketError { before with spBind := ai }
  | bound (addr : Option String) (svc : String) (reuse : Int) (ai : SockAddr) (option rc : Int) :
      Yields before (.bind addr svc reuse)
        [before.resolving addr svc (some ai), before.setting (.reuseAddr reuse) option,
          before.binding ai rc]
        rc { before with spBind := ai, spFlags := before.spFlags ||| spFListener }
  | destined (addr : Option String) (svc : String) (ai : SockAddr) :
      Yields before (.setDestination addr svc) [before.resolving addr svc (some ai)]
        0 { before with spDest := ai, spFlags := before.spFlags ||| spFSender }
  | notJoined (ifaddr : Option String) :
      Yields before (.join ifaddr)
        [before.setting (.addMembership before.spDest (membership before ifaddr)) socketError]
        socketError before
  | joined (ifaddr : Option String) {rc : Int} (h : rc ≠ socketError) :
      Yields before (.join ifaddr)
        [before.setting (.addMembership before.spDest (membership before ifaddr)) rc]
        rc { before with spFlags := before.spFlags ||| spFMulticast }
  | notLeft (ifaddr : Option String) :
      Yields before (.leave ifaddr)
        [before.setting (.dropMembership before.spDest (membership before ifaddr)) socketError]
        socketError before
  | left (ifaddr : Option String) {rc : Int} (h : rc ≠ socketError) :
      Yields before (.leave ifaddr)
        [before.setting (.dropMembership before.spDest (membership before ifaddr)) rc]
        rc { before with spFlags := before.spFlags &&& ~~~ spFMulticast }

/-- After the call the panel is there as the call left it, and only the system calls in it were
made. -/
def PanelOp.Does (op : PanelOp) (p : ℕ) (before : Panel) (w : World) (rc : Int) (w' : World) :
    Prop :=
  ∃ calls after, w'.calls = w.calls ++ calls ∧ w'.panels.value p = some after ∧
    op.Yields before calls rc after

section Steps

variable {A : Type} {post : A → World → Prop} {w : World} {p : ℕ} {panel : Panel}

/-- What follows has to complete with the panel that is read. -/
theorem finishes_deref {next : Panel → DiscoveryM A} (h : w.panels.value p = some panel)
    (hnext : Finishes post (next panel) w) : Finishes post (deref (some p) >>= next) w :=
  .of_eq (deref_eq h) hnext

/-- What follows has to complete with the panel that was stored. -/
theorem finishes_assign {f : Panel → Panel} {next : Unit → DiscoveryM A}
    (h : w.panels.value p = some panel)
    (hnext : ∀ w', w'.calls = w.calls → w'.panels.value p = some (f panel) →
      Finishes post (next ()) w') :
    Finishes post (assign (some p) f >>= next) w :=
  .of_eq (assign_eq h f) (hnext _ rfl (Handles.modify_self h f))

end Steps

section Functions

variable {w : World} {p : ℕ} {panel : Panel} (h : w.panels.value p = some panel)

include h

/-- `BindPanel` stores the address before it knows whether the socket can be reused, and sets its
flag before it binds. -/
theorem bindPanel_does (addr : Option String) (svc : String) (reuse : Int) :
    Finishes ((PanelOp.bind addr svc reuse).Does p panel w)
      (bindPanel (some p) addr svc reuse) w := by
  refine finishes_deref h (.ite (fun _ => finishes_deref h (finishes_sys.mpr ?_)) fun _ => ?_)
  · rintro (_ | ai)
    · exact .pure ⟨_, panel, rfl, h, .unresolved _ addr svc⟩
    · refine finishes_assign h fun stored hcalls hstored =>
        finishes_deref hstored (finishes_sys.mpr fun option => ?_)
      refine .ite (fun hoption => ?_) fun _ => ?_
      · subst hoption
        refine .pure ⟨_, _, ?_, hstored, .notReusable addr svc reuse ai⟩
        rw [World.called, hcalls]
        exact List.append_assoc _ _ _
      · refine finishes_assign hstored fun flagged hcalls' hflagged => ?_
        refine finishes_deref hflagged (finishes_deref hflagged fun rc => ?_)
        refine ⟨rc, rfl, _, _, ?_, hflagged, .bound addr svc reuse ai option rc⟩
        rw [World.called, hcalls', World.called, hcalls]
        simp only [World.called, List.append_assoc]
        rfl
  · exact .pure ⟨[], panel, (List.append_nil _).symm, h, .refused _⟩

/-- `SetDestination` changes the panel only if there is an address. -/
theorem setDestination_does (addr : Option String) (svc : String) :
    Finishes ((PanelOp.setDestination addr svc).Does p panel w)
      (setDestination (some p) addr svc) w := by
  refine finishes_deref h (.ite (fun _ => finishes_deref h (finishes_sys.mpr ?_)) fun _ => ?_)
  · rintro (_ | ai)
    · exact .pure ⟨_, panel, rfl, h, .unresolved _ addr svc⟩
    · exact finishes_assign h fun stored hcalls hstored =>
        .pure ⟨_, _, hcalls, hstored, .destined addr svc ai⟩
  · exact .pure ⟨[], panel, (List.append_nil _).symm, h, .refused _⟩

/-- `JoinMulticastGroup` sets its flag if the system makes it a member. -/
theorem joinMulticastGroup_does (ifaddr : Option String) :
    Finishes ((PanelOp.join ifaddr).Does p panel w) (joinMulticastGroup (some p) ifaddr) w := by
  refine finishes_deref h (.ite (fun _ => finishes_sys.mpr fun rc => ?_) fun _ => ?_)
  · refine .ite (fun hrc => ?_) fun hrc => ?_
    · subst hrc
      exact .pure ⟨_, panel, rfl, h, .notJoined ifaddr⟩
    · exact finishes_assign h fun flagged hcalls hflagged =>
        .pure ⟨_, _, hcalls, hflagged, .joined ifaddr hrc⟩
  · exact .pure ⟨[], panel, (List.append_nil _).symm, h, .refused _⟩

/-- `LeaveMulticastGroup` clears the flag whatever other memberships there are. -/
theorem leaveMulticastGroup_does (ifaddr : Option String) :
    Finishes ((PanelOp.leave ifaddr).Does p panel w) (leaveMulticastGroup (some p) ifaddr) w := by
  refine finishes_deref h (.ite (fun _ => finishes_sys.mpr fun rc => ?_) fun _ => ?_)
  · refine .ite (fun hrc => ?_) fun hrc => ?_
    · subst hrc
      exact .pure ⟨_, panel, rfl, h, .notLeft ifaddr⟩
    · exact finishes_assign h fun flagged hcalls hflagged =>
        .pure ⟨_, _, hcalls, hflagged, .left ifaddr hrc⟩
  · exact .pure ⟨[], panel, (List.append_nil _).symm, h, .refused _⟩

/-- Each call does what it can do. -/
theorem PanelOp.call_does (op : PanelOp) : Finishes (op.Does p panel w) (op.call (some p)) w := by
  cases op with
  | bind addr svc reuse => exact bindPanel_does h addr svc reuse
  | setDestination addr svc => exact setDestination_does h addr svc
  | join ifaddr => exact joinMulticastGroup_does h ifaddr
  | leave ifaddr => exact leaveMulticastGroup_does h ifaddr

/-- A call is noted with what it did, and the panel is there as it was left. -/
theorem runOp_notes (op : PanelOp) :
    Finishes (fun step w' => step.before = panel ∧ w'.panels.value p = some step.after ∧
        step.op.Yields panel step.calls step.rc step.after)
      (runOp (some p) op) w := by
  refine .of_eq (deref_eq h) (.of_eq rfl ((op.call_does h).bind ?_))
  rintro rc w' ⟨calls, after, hcalls, hpanel, hyields⟩
  refine .of_eq (deref_eq hpanel) (.of_eq rfl (.pure ⟨rfl, hpanel, ?_⟩))
  rwa [hcalls, List.drop_left]

end Functions

end VirtualFirmware.Discovery
