import VirtualFirmware.Device.Log
import VirtualFirmware.Device.PlatformRelation

/-!
# The messages of a tail write

A tail write only adds messages to the log as it finds it, and the first one is a status
message. But for these messages it is the tail write of the device.
-/

namespace VirtualFirmware.Device

open Library Messaging Adminq

/-- Messages were added to the log as it was. -/
structure LogState.Appends (log log' : LogState) : Prop where
  file : log'.file = log.file
  dbglvl : log'.dbglvl = log.dbglvl
  uses : ∃ new, log'.uses = log.uses ++ new ∧ (∀ use ∈ new, use.file = log.file) ∧
    (new ≠ [] → dbgStatus ≤ log.dbglvl)

namespace LogState.Appends

variable {log log' log'' : LogState}

/-- A log is its own continuation, by no message. -/
theorem refl (log : LogState) : log.Appends log :=
  ⟨rfl, rfl, [], (List.append_nil _).symm, fun _ hmem => absurd hmem List.not_mem_nil,
    fun h => absurd rfl h⟩

/-- A continuation of a continuation is one of the first log. -/
theorem trans (h : log.Appends log') (h' : log'.Appends log'') : log.Appends log'' := by
  obtain ⟨first, hfirst, hfile, hlevel⟩ := h.uses
  obtain ⟨second, hsecond, hfile', hlevel'⟩ := h'.uses
  refine ⟨h'.file.trans h.file, h'.dbglvl.trans h.dbglvl, first ++ second, ?_, fun use hmem => ?_,
    fun hne => ?_⟩
  · rw [hsecond, hfirst, List.append_assoc]
  · rcases List.mem_append.mp hmem with hmem | hmem
    · exact hfile use hmem
    · exact (hfile' use hmem).trans h.file
  · by_cases hnone : first = []
    · rw [hnone, List.nil_append] at hne
      exact h.dbglvl ▸ hlevel' hne
    · exact hlevel hnone

/-- One message; no level is below that of the status messages. -/
theorem wrote (log : LogState) {level : Int} (hlevel : dbgStatus ≤ level) :
    log.Appends (log.wrote level) := by
  unfold LogState.wrote
  split
  · refine ⟨rfl, rfl, [.written log.file], rfl, fun use hmem => ?_, fun _ => hlevel.trans ‹_›⟩
    rw [List.mem_singleton.mp hmem]
    rfl
  · exact refl log

end LogState.Appends

/-- Whatever the socket calls return, the program only adds messages. -/
def Appending {A : Type} (x : LogM A) : Prop :=
  ∀ log m, Interaction.Always (fun result => log.Appends result.1.2) (x log m)

namespace Appending

variable {A B : Type}

/-- The device's own code writes no messages. -/
theorem lift (x : DeviceM A) : Appending (liftM x : LogM A) := by
  intro log m
  change Interaction.Always _ (x m >>= fun result => .pure ((result.1, log), result.2))
  rw [Interaction.always_bind]
  exact Interaction.always_of_forall (fun result => .refl log) (x m)

/-- Both parts of a sequence add messages. -/
theorem bind {x : LogM A} {next : A → LogM B} (hx : Appending x)
    (hnext : ∀ value, Appending (next value)) :
    Appending (x >>= next) := by
  intro log m
  change Interaction.Always _ (x log m >>= fun result => next result.1.1 result.1.2 result.2)
  rw [Interaction.always_bind]
  refine (hx log m).mono fun first hfirst => ?_
  exact (hnext first.1.1 first.1.2 first.2).mono fun second hsecond => hfirst.trans hsecond

/-- Returning a value writes no message. -/
theorem pure (value : A) : Appending (Pure.pure value : LogM A) := fun log _ => .refl log

/-- `FDBG` only adds to the log. -/
theorem fdbg {level : Int} (hlevel : dbgStatus ≤ level) : Appending (Logged.fdbg level) :=
  fun log _ => .wrote log hlevel

/-- Sequences of programs that only add messages do so. -/
def relation : ProgramRelation LogM LogM where
  Holds x _ := Appending x
  pure := pure
  bind := bind

end Appending

namespace Logged

/-- Every operation only adds messages. -/
theorem platform_appending : platform.Related Appending.relation platform where
  dev := .lift _
  setMacReg _ _ := .lift _
  setFs _ := .lift _
  note _ := .lift _
  fdbg := .fdbg
  qemuMalloc _ := .lift _
  memoryRead _ _ := .lift _
  memoryWrite _ _ := .lift _
  locate := .lift _
  close _ := .lift _
  senddata _ _ _ := .lift _
  recvdata _ _ _ := .lift _

/-- A tail write fetches a descriptor and writes a status message before it goes on. -/
theorem e1000SetAtqTail_starts (index : ℕ) (val : UInt32) (log : LogState) (m : Machine) :
    ∃ base desc m', e1000SetAtqTail index val log m =
      (platform.executeAqCmd desc >>= platform.finishAqCmd base) (log.wrote dbgStatus) m' :=
  ⟨_, _, _, rfl⟩

/-- A tail write starts with a status message and adds more messages. -/
theorem e1000SetAtqTail_appends (index : ℕ) (val : UInt32) (log : LogState) (m : Machine) :
    Interaction.Always (fun result => (log.wrote dbgStatus).Appends result.1.2)
      (e1000SetAtqTail index val log m) := by
  obtain ⟨base, desc, m', hbody⟩ := e1000SetAtqTail_starts index val log m
  have hrest : Appending (platform.executeAqCmd desc >>= platform.finishAqCmd base) :=
    (platform_appending.executeAqCmd desc).bind fun desc => platform_appending.finishAqCmd desc base
  rw [hbody]
  exact hrest _ _

end Logged

/-- But for its messages the one program is the other. -/
def Erases {A : Type} (x : LogM A) (y : DeviceM A) : Prop :=
  ∀ log m, (x log m >>= fun result => .pure (result.1.1, result.2)) = y m

namespace Erases

variable {A B : Type} {x : LogM A} {y : DeviceM A}

/-- The device's own code has no messages. -/
theorem lift (y : DeviceM A) : Erases (liftM y) y := by
  intro log m
  change ((y m >>= fun result => .pure ((result.1, log), result.2)) >>= fun result =>
    .pure (result.1.1, result.2)) = y m
  rw [Interaction.bind_assoc]
  exact Interaction.bind_pure (y m)

/-- Messages are left out of both parts of a sequence. -/
theorem bind {next : A → LogM B} {next' : A → DeviceM B} (hx : Erases x y)
    (hnext : ∀ value, Erases (next value) (next' value)) : Erases (x >>= next) (y >>= next') := by
  intro log m
  change ((x log m >>= fun result => next result.1.1 result.1.2 result.2) >>= fun result =>
    .pure (result.1.1, result.2)) = y m >>= fun result => next' result.1 result.2
  rw [← hx log m, Interaction.bind_assoc, Interaction.bind_assoc]
  exact congrArg _ (funext fun result => hnext result.1.1 result.1.2 result.2)

/-- Returning a value writes no message. -/
theorem pure (value : A) : Erases (Pure.pure value : LogM A) (Pure.pure value) := fun _ _ => rfl

/-- `FDBG` is nothing once the log is left out. -/
theorem fdbg (level : Int) : Erases (Logged.fdbg level) (ramPlatform.fdbg level) := fun _ _ => rfl

/-- Messages are left out of sequences. -/
def relation : ProgramRelation LogM DeviceM where
  Holds := Erases
  pure := pure
  bind := bind

end Erases

namespace Logged

/-- But for its messages every operation is that of the device. -/
theorem platform_erases : platform.Related Erases.relation ramPlatform where
  dev := .lift _
  setMacReg _ _ := .lift _
  setFs _ := .lift _
  note _ := .lift _
  fdbg _ := .fdbg _
  qemuMalloc _ := .lift _
  memoryRead _ _ := .lift _
  memoryWrite _ _ := .lift _
  locate := .lift _
  close _ := .lift _
  senddata _ _ _ := .lift _
  recvdata _ _ _ := .lift _

/-- But for its messages this is the tail write of the device. -/
theorem e1000SetAtqTail_erases (index : ℕ) (val : UInt32) :
    Erases (e1000SetAtqTail index val) (Device.e1000SetAtqTail index val) :=
  platform_erases.e1000SetAtqTail index val

end Logged

end VirtualFirmware.Device
