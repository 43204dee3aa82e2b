import VirtualFirmware.Driver.AsqSteps

/-!
# The lock of the send queue

Every call of `e1000_asq_send_command` leaves through one label that releases the lock, also the
one that is turned away for the size of its buffer before the lock was taken.
`e1000_init_adminq` sets up the ring, the index and the tail without taking the lock at all.
All other paths, with every outcome of the exchange, keep the lock's discipline.
-/

namespace VirtualFirmware.Driver.Asq

open Library Adminq Device

/-- A call of one of the three functions. -/
inductive Action where
  | init (setup : Setup)
  | send (call : AsqCall)
  | shutdown

section Calls

variable (startXmit : Machine → Machine) (cleaning : Bool)

/-- Make the call. -/
def perform : Action → AsqM Unit
  | .init setup => do
    let _ ← e1000InitAdminq startXmit cleaning setup
  | .send call => do
    let _ ← e1000AsqSendCommand startXmit cleaning call
  | .shutdown => do
    let _ ← e1000ShutdownAdminq startXmit

/-- Make calls one after another and return what each of them did to the lock. -/
def performAll : List Action → AsqM (List (List (LockEvent Shared)))
  | [] => return []
  | action :: actions => do
    let before := (← get).lockEvents.length
    perform startXmit cleaning action
    let events := (← get).lockEvents.drop before
    return events :: (← performAll actions)

/-- In every run of the calls the events of each of them satisfy the condition. -/
def EachCall (condition : List (LockEvent Shared) → Prop) (actions : List Action) (s : AsqState)
    (aq : AdminqInfo) (m : Machine) : Prop :=
  Interaction.Always (fun result => ∀ events ∈ result.1.1.1, condition events)
    (performAll startXmit cleaning actions s aq m)

end Calls

/-- The event concerns the lock itself. -/
def onLock : LockEvent Shared → Bool
  | .modify _ => false
  | _ => true

/-- The lock is released only by its holder and free in the end, whatever is modified meanwhile. -/
def Balanced (events : List (LockEvent Shared)) : Prop := Disciplined (events.filter onLock)

instance (events : List (LockEvent Shared)) : Decidable (Balanced events) :=
  inferInstanceAs (Decidable (Disciplined _))

/-- The size of the buffers after the call. -/
def Action.bufSize (before : UInt16) : Action → UInt16
  | .init setup => setup.asqBufSize
  | _ => before

/-- The buffer of the call is not larger than those of the ring. -/
def Action.Fits (bufSize : UInt16) : Action → Prop
  | .send call => call.buffSize ≤ bufSize
  | _ => True

/-- The call fits, and is not one that sets up the queue. -/
def Action.Allowed (bufSize : UInt16) : Action → Prop
  | .init setup => ¬ setup.Valid
  | action => action.Fits bufSize

/-- Each call satisfies the condition with the size of the buffers at that moment. -/
def EachAction (condition : UInt16 → Action → Prop) : UInt16 → List Action → Prop
  | _, [] => True
  | bufSize, action :: actions => condition bufSize action ∧
      EachAction condition (action.bufSize bufSize) actions

/-- The events that a call can have. -/
inductive Action.Yields (bufSize : UInt16) : Action → List (LockEvent Shared) → Prop
  | invalid {setup : Setup} (h : ¬ setup.Valid) : Yields bufSize (.init setup) []
  | failed {setup : Setup} (h : setup.Valid) : Yields bufSize (.init setup) [.init, .modify .ring]
  | init {setup : Setup} (h : setup.Valid) (targets : List Shared) : Yields bufSize (.init setup)
      ([.init, .modify .ring, .modify .nextToUse, .modify .tail] ++ critical targets)
  | oversize {call : AsqCall} (h : ¬ call.buffSize ≤ bufSize) :
      Yields bufSize (.send call) [.release]
  | send {call : AsqCall} (h : call.buffSize ≤ bufSize) (targets : List Shared) :
      Yields bufSize (.send call) (critical targets)
  | shutdown : Yields bufSize .shutdown (critical [.ring])

/-- Filtering a critical section leaves the acquisition and the release. -/
theorem filter_critical (targets : List Shared) :
    (critical targets).filter onLock = [.acquire, .release] := by
  have hmodify : (targets.map LockEvent.modify).filter onLock = [] := by
    simp [List.filter_eq_nil_iff, onLock]
  rw [critical, List.filter_cons_of_pos rfl, List.filter_append, hmodify]
  rfl

/-- The events decide whether the call keeps the whole discipline. -/
theorem Action.Yields.disciplined_iff {bufSize : UInt16} {action : Action}
    {events : List (LockEvent Shared)} (h : action.Yields bufSize events) :
    Disciplined events ↔ action.Allowed bufSize := by
  cases h with
  | invalid hinvalid => exact iff_of_true rfl hinvalid
  | failed hvalid => exact iff_of_false (not_disciplined_init_modify _ _) (not_not.mpr hvalid)
  | init hvalid targets => exact iff_of_false (not_disciplined_init_modify _ _) (not_not.mpr hvalid)
  | oversize hsize => exact iff_of_false (not_disciplined_release _) hsize
  | send hsize targets => exact iff_of_true (disciplined_critical targets) hsize
  | shutdown => exact iff_of_true (disciplined_critical _) trivial

/-- The events decide whether the call acquires and releases correctly. -/
theorem Action.Yields.balanced_iff {bufSize : UInt16} {action : Action}
    {events : List (LockEvent Shared)} (h : action.Yields bufSize events) :
    Balanced events ↔ action.Fits bufSize := by
  unfold Balanced
  cases h with
  | invalid hinvalid => exact iff_of_true rfl trivial
  | failed hvalid => exact iff_of_true (by decide) trivial
  | init hvalid targets =>
    rw [List.filter_append, filter_critical]
    exact iff_of_true (by decide) trivial
  | oversize hsize => exact iff_of_false (by decide) hsize
  | send hsize targets =>
    rw [filter_critical]
    exact iff_of_true (by decide) hsize
  | shutdown => exact iff_of_true (by decide) trivial

section Steps

variable (startXmit : Machine → Machine) (cleaning : Bool) (s : AsqState) (aq : AdminqInfo)
  (m : Machine)

/-- A call had events that it can have, and left the buffers at the size it leaves them at. -/
def Noted {A : Type} (s : AsqState) (bufSize : UInt16) (action : Action)
    (result : ((A × AsqState) × AdminqInfo) × Machine) : Prop :=
  (∃ events, result.1.1.2.lockEvents = s.lockEvents ++ events ∧ action.Yields bufSize events) ∧
    result.1.2.asqBufSize = action.bufSize bufSize

/-- A command that is posted ends the critical section it was posted in. -/
theorem postCommand_critical {s s' : AsqState} (targets : List Shared)
    (h : s'.lockEvents = s.lockEvents ++ .acquire :: targets.map .modify) (call : AsqCall) :
    Interaction.Always (fun result =>
        (∃ targets, result.1.1.2.lockEvents = s.lockEvents ++ critical targets) ∧
          result.1.2.asqBufSize = aq.asqBufSize)
      (postCommand startXmit call s' aq m) := by
  rw [postCommand_eq, Interaction.always_bind]
  refine (e1000SetAtqTail_written _ _).mono fun written _ =>
    ⟨⟨targets ++ (filled call ++ [.tail]), ?_⟩, rfl⟩
  simp [h, critical]

/-- A command notes what its action does to the lock. -/
theorem e1000AsqSendCommand_noted (call : AsqCall) :
    Interaction.Always (Noted s aq.asqBufSize (.send call))
      (e1000AsqSendCommand startXmit cleaning call s aq m) := by
  by_cases hsize : call.buffSize > aq.asqBufSize
  · rw [e1000AsqSendCommand_oversize s aq m startXmit hsize]
    exact ⟨⟨_, rfl, .oversize (by simpa using hsize)⟩, rfl⟩
  · have hfits : call.buffSize ≤ aq.asqBufSize := by simpa using hsize
    have hcritical {s' : AsqState} (m' : Machine) (targets : List Shared)
        (h : s'.lockEvents = s.lockEvents ++ .acquire :: targets.map .modify) :
        Interaction.Always (Noted s aq.asqBufSize (.send call))
          (postCommand startXmit call s' aq m') :=
      (postCommand_critical startXmit aq m' targets h call).mono fun result hresult =>
        ⟨hresult.1.imp' _ fun targets' htargets => ⟨htargets, .send hfits targets'⟩, hresult.2⟩
    cases cleaning with
    | false =>
      rw [e1000AsqSendCommand_uncleaned s aq m startXmit hsize]
      exact hcritical m [] rfl
    | true =>
      have hcleaned : (afterClean (s.noted [.acquire]) aq (cleanedNow s aq m)).lockEvents =
          s.lockEvents ++ .acquire :: (cleanedNow s aq m).targets.map .modify := by
        simp [afterClean]
      rw [e1000AsqSendCommand_cleaned s aq m startXmit hsize]
      split
      · refine ⟨⟨critical (cleanedNow s aq m).targets, ?_, .send hfits _⟩, rfl⟩
        rw [AsqState.noted_lockEvents, hcleaned, critical, List.append_assoc, List.cons_append]
      · exact hcritical _ _ hcleaned

/-- An initialisation notes what its action does to the lock. -/
theorem e1000InitAdminq_noted (setup : Setup) :
    Interaction.Always (Noted s aq.asqBufSize (.init setup))
      (e1000InitAdminq startXmit cleaning setup s aq m) := by
  by_cases hvalid : setup.Valid
  · by_cases hring : setup.ring = none ∨ setup.ring = some 0
    · rw [e1000InitAdminq_failed s aq m startXmit setup cleaning hvalid hring]
      exact ⟨⟨_, rfl, .failed hvalid⟩, rfl⟩
    · obtain ⟨hsome, hzero⟩ := not_or.mp hring
      obtain ⟨dma, hdma⟩ := Option.ne_none_iff_exists'.mp hsome
      have hne : dma ≠ 0 := fun h => hzero (hdma.trans (congrArg some h))
      rw [e1000InitAdminq_eq s aq m startXmit setup cleaning hvalid hdma hne,
        Interaction.always_bind, e1000ConfigAdminqRegs_eq, Interaction.always_bind]
      refine (e1000SetAtqTail_written _ _).mono fun written _ => ?_
      change Interaction.Always _ (_ >>= _)
      rw [Interaction.always_bind]
      refine (e1000AsqSendCommand_noted startXmit cleaning _ _ _ (versionCall setup.cookie)).mono
        fun sent hsent => ?_
      obtain ⟨⟨events, hevents, hyields⟩, hbufSize⟩ := hsent
      refine ⟨⟨[.init, .modify .ring, .modify .nextToUse, .modify .tail] ++ events, ?_, ?_⟩,
        hbufSize⟩
      · simp [hevents]
      · cases hyields with
        | oversize hsize => exact absurd (Nat.zero_le _) hsize
        | send _ targets => exact .init hvalid targets
  · rw [e1000InitAdminq_invalid s aq m startXmit setup cleaning hvalid]
    exact ⟨⟨[], (List.append_nil _).symm, .invalid hvalid⟩, rfl⟩

/-- Every call notes what its action does to the lock. -/
theorem perform_noted (action : Action) :
    Interaction.Always (Noted s aq.asqBufSize action)
      (perform startXmit cleaning action s aq m) := by
  cases action with
  | init setup =>
    have hnoted := e1000InitAdminq_noted startXmit cleaning s aq m setup
    exact (Interaction.always_bind _ _ _).mpr (hnoted.mono fun result hresult => hresult)
  | send call =>
    have hnoted := e1000AsqSendCommand_noted startXmit cleaning s aq m call
    exact (Interaction.always_bind _ _ _).mpr (hnoted.mono fun result hresult => hresult)
  | shutdown =>
    have hnoted : s.noted (critical [.ring]) =
        ((s.noted [.acquire]).noted [.modify .ring]).noted [.release] := by
      simp [critical]
    exact ⟨⟨critical [.ring], congrArg AsqState.lockEvents hnoted.symm, .shutdown⟩, rfl⟩

/-- A condition that the events of each call decide holds of every run of the calls if and only if
each call meets it. -/
theorem eachCall_iff {condition : List (LockEvent Shared) → Prop} {allowed : UInt16 → Action → Prop}
    (hdecide : ∀ {bufSize action events}, action.Yields bufSize events →
      (condition events ↔ allowed bufSize action))
    (actions : List Action) :
    EachCall startXmit cleaning condition actions s aq m ↔
      EachAction allowed aq.asqBufSize actions := by
  induction actions generalizing s aq m with
  | nil => exact iff_of_true (fun events hmem => absurd hmem List.not_mem_nil) trivial
  | cons action actions ih =>
    have hfirst := perform_noted startXmit cleaning s aq m action
    have hstart : EachCall startXmit cleaning condition (action :: actions) s aq m ↔
        Interaction.Always (fun result =>
          condition (result.1.1.2.lockEvents.drop s.lockEvents.length) ∧
            EachCall startXmit cleaning condition actions result.1.1.2 result.1.2 result.2)
          (perform startXmit cleaning action s aq m) := by
      change Interaction.Always _ (perform startXmit cleaning action s aq m >>= fun result =>
        performAll startXmit cleaning actions result.1.1.2 result.1.2 result.2 >>= fun rest =>
          .pure (((result.1.1.2.lockEvents.drop s.lockEvents.length :: rest.1.1.1, rest.1.1.2),
            rest.1.2), rest.2)) ↔ _
      rw [Interaction.always_bind]
      refine Interaction.always_congr (fun result => ?_) _
      rw [EachCall, ← Interaction.always_and_left refused, Interaction.always_bind]
      exact Interaction.always_congr (fun rest => List.forall_mem_cons) _
    rw [hstart]
    refine Interaction.always_iff_fixed refused (hfirst.mono fun result hresult => ?_)
    obtain ⟨⟨events, hevents, hyields⟩, hbufSize⟩ := hresult
    rw [hevents, List.drop_left, ih, hbufSize, hdecide hyields]
    rfl

end Steps

/-- For every sequence of calls, every outcome of the exchanges and with or without the cleaning:
the lock's discipline is kept exactly if no buffer is too large and no call sets up the queue, and
the lock is acquired and released correctly exactly if no buffer is too large. -/
theorem lock_kept_iff (startXmit : Machine → Machine) (cleaning : Bool) (actions : List Action)
    (s : AsqState) (aq : AdminqInfo) (m : Machine) :
    (EachCall startXmit cleaning Disciplined actions s aq m ↔
        EachAction Action.Allowed aq.asqBufSize actions) ∧
      (EachCall startXmit cleaning Balanced actions s aq m ↔
        EachAction Action.Fits aq.asqBufSize actions) :=
  ⟨eachCall_iff startXmit cleaning s aq m (fun h => h.disciplined_iff) actions,
    eachCall_iff startXmit cleaning s aq m (fun h => h.balanced_iff) actions⟩

/-- Three slots with buffers of 512 bytes. -/
def threeSlotsSetup : Setup :=
  { numAsqEntries := 3, asqBufSize := 512, ring := some 0x1000, bufs := fun _ => 0, cookie := 0 }

/-- A call with too large a buffer releases the lock that it does not hold, and setting up the queue
modifies it without the lock. -/
theorem oversize_releases_free_lock :
    (performAll id true [.send (echoCall 0 (fun _ => 0) 1024)] freshState threeSlots default =
        .pure ((([[.release]], freshState.noted [.release]), threeSlots), default) ∧
      ¬ Balanced [.release]) ∧
      ¬ EachCall id true Disciplined [.init threeSlotsSetup] freshState threeSlots default := by
  refine ⟨⟨rfl, by decide⟩, fun h => ?_⟩
  have hallowed := (eachCall_iff id true _ _ _ (fun hyields => hyields.disciplined_iff) _).mp h
  exact hallowed.1 (by decide)

end VirtualFirmware.Driver.Asq
