import VirtualFirmware.Discovery.Locate

/-!
# Calls that neither receive nor connect

Everything `locate` does apart from its loop makes no call that receives a datagram or connects. So
whatever can be said about the datagrams received and the connections made so far stays true, also
when the program stops.
-/

namespace VirtualFirmware.Discovery

open Library

/-- The call neither receives nor connects. -/
def SysCall.Silent : SysCall → Prop
  | .recvfrom _ _ => False
  | .connect _ _ => False
  | _ => True

/-- An invariant that concerns only the calls that receive or connect. -/
structure Silently (inv : World → Prop) : Prop where
  tables : ∀ (w : World) (panels : Handles Panel) (sockets : Handles Unit), inv w →
    inv ⟨panels, sockets, w.calls⟩
  calls : ∀ (w : World) (op : SysCall) (reply : SysReply op), op.Silent → inv w →
    inv (w.called op reply)

namespace Silently

variable {inv : World → Prop} (h : Silently inv)

include h

/-- A silent call maintains the invariant. -/
theorem sys {op : SysCall} (hop : op.Silent) : Maintains inv (sys op) :=
  fun w hw reply => h.calls w op reply hop hw

omit h in
/-- Reading a panel maintains the invariant. -/
theorem deref (p : PanelPtr) : Maintains inv (deref p) := by
  intro w hw
  unfold Discovery.deref
  cases p with
  | none => exact hw
  | some id =>
    dsimp only
    split <;> exact hw

/-- Storing into a panel maintains the invariant. -/
theorem assign (p : PanelPtr) (f : Panel → Panel) : Maintains inv (assign p f) := by
  intro w hw
  unfold Discovery.assign
  cases p with
  | none => exact hw
  | some id =>
    dsimp only
    split
    · exact hw
    · exact h.tables w _ _ hw

/-- Freeing a panel maintains the invariant. -/
theorem free (p : PanelPtr) : Maintains inv (free p) := by
  intro w hw
  unfold Discovery.free
  cases p with
  | none => exact hw
  | some id =>
    dsimp only
    split
    · exact hw
    · exact h.tables w _ _ hw

/-- Closing a socket maintains the invariant. -/
theorem close (socket : Socket) : Maintains inv (close socket) := by
  intro w hw
  cases socket with
  | none => exact hw
  | some fd => exact h.tables w _ _ hw

/-- `FreePanel` maintains the invariant. -/
theorem freePanel (p : PanelPtr) : Maintains inv (freePanel p) := by
  refine .ite ?_ (.pure _)
  exact .bind (deref p) fun _ => .bind (h.close _) fun _ => h.free p

/-- `DissociatePanel` maintains the invariant. -/
theorem dissociatePanel (p : PanelPtr) : Maintains inv (dissociatePanel p) :=
  .ite (h.free p) (.pure _)

/-- `CreatePanel` maintains the invariant. -/
theorem createPanel (af : AddrFamily) (type : SockType) (proto : Protocol) :
    Maintains inv (createPanel af type proto) := by
  refine .bind (.bind (h.sys trivial) fun available => ?_) fun p => .bind ?_ fun spSocket => ?_
  · exact .ite (fun w hw => h.tables w _ _ hw) (.pure _)
  · exact .bind (h.sys trivial) fun _ => .ite (fun w hw => h.tables w _ _ hw) (.pure _)
  · refine .bind (h.assign p _) fun _ => .bind (deref p) fun _ => .ite ?_ ?_
    · exact .bind (h.freePanel p) fun _ => .pure _
    · exact .bind (h.assign p _) fun _ => .pure _

/-- `BindPanel` maintains the invariant. -/
theorem bindPanel (p : PanelPtr) (addr : Option String) (svc : String) (reuse : Int) :
    Maintains inv (bindPanel p addr svc reuse) := by
  refine .bind (deref p) fun _ =>
    .ite (.bind (deref p) fun _ => .bind (h.sys trivial) fun ai => ?_) (.pure _)
  cases ai with
  | none => exact .pure _
  | some ai =>
    refine .bind (h.assign p _) fun _ => .bind (deref p) fun _ => .bind (h.sys trivial) fun _ => ?_
    refine .ite (.pure _) (.bind (h.assign p _) fun _ => ?_)
    exact .bind (deref p) fun _ => .bind (deref p) fun _ => h.sys trivial

/-- `CreateBoundPanel` maintains the invariant. -/
theorem createBoundPanel (svc : String) (af : AddrFamily) (type : SockType) (proto : Protocol) :
    Maintains inv (createBoundPanel svc af type proto) := by
  refine .bind (h.createPanel af type proto) fun p => .bind (h.bindPanel p _ _ _) fun _ =>
    .ite ?_ (.pure _)
  exact .bind (h.freePanel p) fun _ => .pure _

/-- `SetDestination` maintains the invariant. -/
theorem setDestination (p : PanelPtr) (addr : Option String) (svc : String) :
    Maintains inv (setDestination p addr svc) := by
  refine .bind (deref p) fun _ =>
    .ite (.bind (deref p) fun _ => .bind (h.sys trivial) fun ai => ?_) (.pure _)
  cases ai with
  | none => exact .pure _
  | some ai => exact .bind (h.assign p _) fun _ => .pure _

/-- `JoinMulticastGroup` maintains the invariant. -/
theorem joinMulticastGroup (p : PanelPtr) (ifaddr : Option String) :
    Maintains inv (joinMulticastGroup p ifaddr) := by
  refine .bind (deref p) fun _ => .ite (.bind (h.sys trivial) fun _ => .ite (.pure _) ?_) (.pure _)
  exact .bind (h.assign p _) fun _ => .pure _

/-- `SetMulticastLoopback` maintains the invariant. -/
theorem setMulticastLoopback (p : PanelPtr) (loopval : Int) :
    Maintains inv (setMulticastLoopback p loopval) :=
  .bind (deref p) fun _ => .ite (.bind (h.sys trivial) fun _ => .ite (.pure _) (.pure _)) (.pure _)

omit h in
/-- Reading an entry of an array maintains the invariant. -/
theorem entry {A : Type} (array : List A) (i : ℕ) : Maintains inv (entry array i) := by
  intro w hw
  unfold Discovery.entry
  split <;> exact hw

/-- The loop of `populateInterfaceData` maintains the invariant. -/
theorem populateLoop (numIfs : ℕ) (ifaddrs : List IfAddr) (found : ℕ) (ifD : List IfData) :
    Maintains inv (populateLoop numIfs ifaddrs found ifD) := by
  induction ifaddrs generalizing found ifD with
  | nil => exact .pure _
  | cons ifa rest ih =>
    unfold Discovery.populateLoop
    split
    · exact ih _ _
    · refine .ite (ih _ _) (.bind (h.sys trivial) fun name => ?_)
      cases name with
      | none => exact .pure _
      | some name =>
        refine .bind (fun w hw => ?_) fun _ => ih _ _
        unfold setEntry
        split <;> exact hw

/-- `populateInterfaceData` maintains the invariant. -/
theorem populateInterfaceData (ifD : List IfData) (numIfs : ℕ) :
    Maintains inv (populateInterfaceData ifD numIfs) := by
  refine .bind (h.sys trivial) fun ifaddrs => ?_
  cases ifaddrs with
  | none => exact .pure _
  | some ifaddrs => exact h.populateLoop numIfs ifaddrs 0 ifD

/-- The loop that joins the group maintains the invariant. -/
theorem joinLoop (p : PanelPtr) (ifd : List IfData) (ifdLength left : ℕ) :
    Maintains inv (joinLoop p ifd ifdLength left) := by
  induction left with
  | zero => exact .pure _
  | succ left ih =>
    refine .bind (entry _ _) fun _ => .bind (h.joinMulticastGroup p _) fun _ => .ite (.pure _) ih

/-- The label `err` maintains the invariant. -/
theorem locateErr (hs cs : PanelPtr) : Maintains inv (locateErr hs cs) := by
  refine .ite (.bind (h.freePanel hs) fun _ => ?_) ?_
  · exact .ite (.bind (h.freePanel cs) fun _ => .pure _) (.pure _)
  · exact .ite (.bind (h.freePanel cs) fun _ => .pure _) (.pure _)

/-- What follows the loop maintains the invariant. -/
theorem locateDone (hs cs : PanelPtr) (socket : Socket) : Maintains inv (locateDone hs cs socket) :=
  .bind (h.freePanel hs) fun _ => .bind (h.dissociatePanel cs) fun _ => .pure _

end Silently

end VirtualFirmware.Discovery
