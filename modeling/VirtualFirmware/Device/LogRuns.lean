import VirtualFirmware.Device.LogMessages
import VirtualFirmware.Device.RingSemantics

/-!
# The log over the lives of several devices

A process runs any number of devices. The removal of one of them closes the log of all, and as
the pointer is not reset nothing opens the log again. From then on every message goes to a
closed file and every further removal closes it once more.
-/

namespace VirtualFirmware.Device

open Library Messaging Adminq

/-- The log, the devices, and the machine as the device at work sees it. -/
structure Process where
  log : LogState
  devices : ℕ → E1000State
  machine : Machine

/-- Code of the process. -/
abbrev ProcessM := StateT Process (Interaction DeviceOp DeviceReply)

/-- What happens to a device. A device that is plugged in again is another device. -/
inductive DeviceAction where
  | init (device : ℕ) (state : E1000State) (dbglvl : Int)
  | setAtqTail (device : ℕ) (val : UInt32)
  | uninit (device : ℕ)

/-- A message of the process itself. -/
def Process.wrote (p : Process) (level : Int) : Process := { p with log := p.log.wrote level }

/-- `pci_e1000_init`: the first device opens the log and reads the options, which give the debug
level. The state is the one the device is left in. -/
def pciE1000Init (device : ℕ) (state : E1000State) (dbglvl : Int) : ProcessM Unit := do
  if (← get).log.file = .null then
    modify fun p => { p with log := { p.log with file := .opened, dbglvl } }
    modify fun p => p.wrote dbgStatus
  else
    modify fun p => p.wrote dbgStatus
  modify fun p => { p with devices := Function.update p.devices device state }

/-- A write of the tail register of a device. -/
def setAtqTail (device : ℕ) (val : UInt32) : ProcessM Unit := fun p => do
  let result ← Logged.e1000SetAtqTail pfAtqt val p.log { p.machine with dev := p.devices device }
  return ((), {
    log := result.1.2
    devices := Function.update p.devices device result.2.dev
    machine := result.2 })

/-- `pci_e1000_uninit`: the log is closed, but still pointed to. -/
def pciE1000Uninit (device : ℕ) : ProcessM Unit := do
  modify fun p => p.wrote dbgStatus
  modify fun p =>
    { p with log := { p.log with file := .closed, uses := p.log.uses ++ [.closed p.log.file] } }
  let p ← get
  let _ ← (Interaction.ask (DeviceOp.close (p.devices device).fs) :
    Interaction DeviceOp DeviceReply _)

/-- Carry out an action. -/
def DeviceAction.perform : DeviceAction → ProcessM Unit
  | .init device state dbglvl => pciE1000Init device state dbglvl
  | .setAtqTail device val => Device.setAtqTail device val
  | .uninit device => pciE1000Uninit device

/-- Carry out actions one after another. -/
def performActions : List DeviceAction → ProcessM Unit
  | [] => return
  | action :: actions => do
    action.perform
    performActions actions

/-- The process before its first device. -/
def Process.start (dbglvl : Int) (devices : ℕ → E1000State) (machine : Machine) : Process :=
  { log := { file := .null, dbglvl, uses := [] }, devices, machine }

/-- Each device is initialised before it is used and not used after it was removed. -/
def Lives (alive gone : List ℕ) : List DeviceAction → Prop
  | [] => True
  | .init device _ _ :: actions => device ∉ alive ++ gone ∧ Lives (device :: alive) gone actions
  | .setAtqTail device _ :: actions => device ∈ alive ∧ Lives alive gone actions
  | .uninit device :: actions => device ∈ alive ∧
      Lives (alive.erase device) (device :: gone) actions

/-- In every run of the actions the log is open whenever it is used. -/
def OpenWhenUsed (actions : List DeviceAction) (p : Process) : Prop :=
  Interaction.Always (fun result => ∀ use ∈ result.2.log.uses, use.file = .opened)
    (performActions actions p)

/-- The action removes a device. -/
def DeviceAction.Removes : DeviceAction → Prop
  | .uninit _ => True
  | _ => False

/-- The debug level that the first action reads from the options. -/
def openingLevel : List DeviceAction → Int
  | .init _ _ dbglvl :: _ => dbglvl
  | _ => 0

/-- The first removal is the last action, or the level asks for no messages and there is no other
removal. -/
def OneRemoval (dbglvl : Int) : List DeviceAction → Prop
  | [] => True
  | .uninit _ :: actions => actions = [] ∨ dbglvl < dbgStatus ∧ ∀ action ∈ actions, ¬ action.Removes
  | _ :: actions => OneRemoval dbglvl actions

/-- The action uses the log. -/
def DeviceAction.UsesLog (dbglvl : Int) (action : DeviceAction) : Prop :=
  dbgStatus ≤ dbglvl ∨ action.Removes

/-- What the log points to after the action. -/
def DeviceAction.leaves (file : LogFile) : DeviceAction → LogFile
  | .uninit _ => .closed
  | _ => file

/-- What an action does to a log that was opened before. -/
structure Stepped (action : DeviceAction) (log log' : LogState) : Prop where
  file : log'.file = action.leaves log.file
  dbglvl : log'.dbglvl = log.dbglvl
  uses : ∃ new, log'.uses = log.uses ++ new ∧ (∀ use ∈ new, use.file = log.file) ∧
    (new ≠ [] ↔ action.UsesLog log.dbglvl)

namespace Stepped

variable {action : DeviceAction} {log log' : LogState}

/-- The log was open at all its uses if it was so before and is open at the new ones. -/
theorem opened_iff (h : Stepped action log log') :
    (∀ use ∈ log'.uses, use.file = .opened) ↔
      (∀ use ∈ log.uses, use.file = .opened) ∧
        (action.UsesLog log.dbglvl → log.file = .opened) := by
  obtain ⟨new, hnew, hfile, huses⟩ := h.uses
  rw [hnew, List.forall_mem_append, ← huses]
  refine and_congr_right fun _ => ⟨fun hopened hne => ?_, fun hopened use hmem => ?_⟩
  · obtain ⟨use, hmem⟩ := List.exists_mem_of_ne_nil new hne
    exact (hfile use hmem).symm.trans (hopened use hmem)
  · exact (hfile use hmem).trans (hopened (List.ne_nil_of_mem hmem))

/-- A status message, and more messages if there was one, are what an action leaves that removes
nothing. -/
theorem of_appends (haction : ¬ action.Removes) (h : (log.wrote dbgStatus).Appends log') :
    Stepped action log log' := by
  have hleaves : action.leaves log.file = log.file := by
    cases action with
    | uninit device => exact absurd trivial haction
    | _ => rfl
  obtain ⟨new, hnew, hfile, hlevel⟩ := h.uses
  by_cases hstatus : dbgStatus ≤ log.dbglvl
  · rw [LogState.wrote_of_le hstatus] at h hnew hfile
    refine ⟨h.file.trans hleaves.symm, h.dbglvl, .written log.file :: new, ?_, ?_, ?_⟩
    · rw [hnew, List.append_assoc, List.singleton_append]
    · exact List.forall_mem_cons.mpr ⟨rfl, hfile⟩
    · exact iff_of_true (List.cons_ne_nil _ _) (.inl hstatus)
  · rw [LogState.wrote_of_not_le hstatus] at h hnew hfile hlevel
    refine ⟨h.file.trans hleaves.symm, h.dbglvl, new, hnew, hfile, ?_⟩
    exact iff_of_false (fun hne => hstatus (hlevel hne)) (not_or.mpr ⟨hstatus, haction⟩)

/-- The last message and the closing of the log are what a removal leaves. -/
theorem uninit (device : ℕ) (log : LogState) :
    Stepped (.uninit device) log
      { log.wrote dbgStatus with
        file := .closed, uses :=
  (log.wrote dbgStatus).uses ++ [.closed (log.wrote dbgStatus).file] } := by
  have hwrote := LogState.Appends.wrote log (Int.le_refl dbgStatus)
  obtain ⟨new, hnew, hfile, -⟩ := hwrote.uses
  refine ⟨rfl, hwrote.dbglvl, new ++ [.closed (log.wrote dbgStatus).file], ?_, ?_, ?_⟩
  · exact (congrArg (· ++ _) hnew).trans (List.append_assoc _ _ _)
  · refine List.forall_mem_append.mpr ⟨hfile, fun use hmem => ?_⟩
    rw [List.mem_singleton.mp hmem]
    exact hwrote.file
  · exact iff_of_true (List.append_ne_nil_of_right_ne_nil _ (List.cons_ne_nil _ _)) (.inr trivial)

end Stepped

/-- What any action does to a log that was opened before, whatever the socket calls return. -/
theorem DeviceAction.perform_stepped (action : DeviceAction) {p : Process}
    (hfile : p.log.file ≠ .null) :
    Interaction.Always (fun result => Stepped action p.log result.2.log) (action.perform p) := by
  cases action with
  | init device state dbglvl =>
    change Interaction.Always _ ((if p.log.file = .null then _ else _ : ProcessM Unit) p)
    rw [if_neg hfile]
    exact Stepped.of_appends id (.refl _)
  | setAtqTail device val =>
    refine (Interaction.always_bind _ _ _).mpr ?_
    exact (Logged.e1000SetAtqTail_appends _ _ _ _).mono fun result hresult =>
      Stepped.of_appends id hresult
  | uninit device => exact fun _ => Stepped.uninit device p.log

/-- Each action that uses the log finds it open. -/
def Finds (dbglvl : Int) : LogFile → List DeviceAction → Prop
  | _, [] => True
  | file, action :: actions =>
    (action.UsesLog dbglvl → file = .opened) ∧ Finds dbglvl (action.leaves file) actions

/-- Once the log is closed nothing may use it. -/
theorem finds_closed_iff {dbglvl : Int} {actions : List DeviceAction} :
    Finds dbglvl .closed actions ↔ ∀ action ∈ actions, ¬ action.UsesLog dbglvl := by
  induction actions with
  | nil => exact iff_of_true trivial fun _ hmem => absurd hmem List.not_mem_nil
  | cons action actions ih =>
    have hleaves : action.leaves .closed = .closed := by
      cases action with
      | _ => rfl
    rw [Finds, hleaves, ih, List.forall_mem_cons]
    exact and_congr_left' ⟨fun h huses => LogFile.noConfusion (h huses),
      fun h huses => absurd huses h⟩

/-- No action uses the log exactly if there is none, or no message and no removal. -/
theorem none_usesLog_iff {dbglvl : Int} {actions : List DeviceAction} :
    (∀ action ∈ actions, ¬ action.UsesLog dbglvl) ↔
      actions = [] ∨ dbglvl < dbgStatus ∧ ∀ action ∈ actions, ¬ action.Removes := by
  constructor
  · intro hnone
    refine or_iff_not_imp_left.mpr fun hne => ?_
    obtain ⟨action, hmem⟩ := List.exists_mem_of_ne_nil actions hne
    exact ⟨Int.not_le.mp (not_or.mp (hnone action hmem)).1,
      fun other hother => (not_or.mp (hnone other hother)).2⟩
  · rintro (rfl | ⟨hlevel, hremoves⟩) action hmem
    · exact absurd hmem List.not_mem_nil
    · exact not_or.mpr ⟨Int.not_le.mpr hlevel, hremoves action hmem⟩

/-- The open log is found open until the first removal. -/
theorem finds_opened_iff {dbglvl : Int} {actions : List DeviceAction} :
    Finds dbglvl .opened actions ↔ OneRemoval dbglvl actions := by
  induction actions with
  | nil => rfl
  | cons action actions ih =>
    have hopened : (action.UsesLog dbglvl → LogFile.opened = .opened) := fun _ => rfl
    rw [Finds, and_iff_right hopened]
    cases action with
    | uninit device => exact finds_closed_iff.trans none_usesLog_iff
    | _ => exact ih

/-- The log is open whenever it is used if it was so before and each action finds it open. -/
theorem openWhenUsed_iff {actions : List DeviceAction} {p : Process} (hfile : p.log.file ≠ .null) :
    OpenWhenUsed actions p ↔
      (∀ use ∈ p.log.uses, use.file = .opened) ∧ Finds p.log.dbglvl p.log.file actions := by
  induction actions generalizing p with
  | nil => exact (and_iff_left trivial).symm
  | cons action actions ih =>
    have hrun : OpenWhenUsed (action :: actions) p ↔
        Interaction.Always (fun result => OpenWhenUsed actions result.2) (action.perform p) :=
      Interaction.always_bind _ _ _
    rw [hrun]
    refine Interaction.always_iff_fixed refused
      ((action.perform_stepped hfile).mono fun result hresult => ?_)
    have hfile' : result.2.log.file ≠ .null := by
      rw [hresult.file]
      cases action with
      | uninit device => exact LogFile.noConfusion
      | _ => exact hfile
    rw [ih hfile', hresult.opened_iff, hresult.file, hresult.dbglvl, and_assoc]
    rfl

/-- For every sequence of actions on any number of devices, each initialised before it is used and
not used after its removal, the log is open whenever it is used if and only if the first removal
is the last action, or the debug level asks for no messages and no other device is removed. -/
theorem openWhenUsed_iff_oneRemoval (dbglvl : Int) (devices : ℕ → E1000State) (machine : Machine)
    (actions : List DeviceAction) (hlives : Lives [] [] actions) :
    OpenWhenUsed actions (.start dbglvl devices machine) ↔
      OneRemoval (openingLevel actions) actions := by
  cases actions with
  | nil => exact iff_of_true (fun _ hmem => absurd hmem List.not_mem_nil) trivial
  | cons action actions =>
    cases action with
    | init device state level =>
      let opened : LogState := { file := .opened, dbglvl := level, uses := [] }
      have hwrote := LogState.Appends.wrote opened (Int.le_refl dbgStatus)
      obtain ⟨new, hnew, hnewFile, -⟩ := hwrote.uses
      have hfile : (opened.wrote dbgStatus).file ≠ .null := hwrote.file ▸ LogFile.noConfusion
      change OpenWhenUsed actions
        { log := opened.wrote dbgStatus, devices := Function.update devices device state,
          machine } ↔ _
      rw [openWhenUsed_iff hfile, hnew, List.nil_append, and_iff_right hnewFile, hwrote.file,
        hwrote.dbglvl]
      exact finds_opened_iff
    | setAtqTail device val => exact absurd hlives.1 List.not_mem_nil
    | uninit device => exact absurd hlives.1 List.not_mem_nil

/-- One device is initialised, used and removed. -/
def oneLife : List DeviceAction := [.init 0 default 1, .setAtqTail 0 1, .uninit 0]

/-- The log is open throughout the life of a single device. -/
theorem openWhenUsed_oneLife :
    Lives [] [] oneLife ∧ OpenWhenUsed oneLife (.start 0 default default) := by
  have hlives : Lives [] [] oneLife := by simp [oneLife, Lives]
  exact ⟨hlives, (openWhenUsed_iff_oneRemoval 0 default default oneLife hlives).mpr (.inl rfl)⟩

/-- Of two devices the first is removed before the second is used. -/
def twoLives : List DeviceAction :=
  [.init 0 default 1, .init 1 default 1, .uninit 0, .setAtqTail 1 1]

/-- The tail write of the remaining device finds the log closed. -/
theorem twoLives_finds_log_closed :
    Lives [] [] twoLives ∧
      ((performActions twoLives (.start 0 default default)).resolve refused).2.log.uses =
        [.written .opened, .written .opened, .written .opened, .closed .opened,
          .written .closed, .written .closed] ∧
      ¬ OpenWhenUsed twoLives (.start 0 default default) := by
  have huses : ((performActions twoLives (.start 0 default default)).resolve refused).2.log.uses =
      [.written .opened, .written .opened, .written .opened, .closed .opened,
        .written .closed, .written .closed] := by
    decide +kernel
  refine ⟨by simp [twoLives, Lives], huses, fun hopen => ?_⟩
  have hall := hopen.resolve refused
  rw [huses] at hall
  exact absurd (hall (.written .closed) (by simp)) (by decide)

end VirtualFirmware.Device
