import Mathlib.Data.List.Basic

/-!
# The discipline of a lock

Code that uses a lock is followed through the events that concern it: the lock is initialised,
acquired and released, and what it protects is modified. One holder at a time is enough to
say whether a call keeps the discipline: it releases only what it holds, modifies only while
it holds the lock, and leaves the lock free.
-/

namespace VirtualFirmware.Library

/-- What happens to a lock, or to a target that it protects. -/
inductive LockEvent (T : Type) where
  | init
  | acquire
  | release
  | modify (target : T)
deriving DecidableEq, Repr

variable {T : Type}

/-- Whether the lock is held after the event; `none` if the event is not allowed. -/
def LockEvent.step : Bool → LockEvent T → Option Bool
  | false, .init => some false
  | false, .acquire => some true
  | true, .release => some false
  | true, .modify _ => some true
  | _, _ => none

/-- Whether the lock is held after the events, if all of them are allowed. -/
def lockHeld (held : Bool) (events : List (LockEvent T)) : Option Bool :=
  events.foldlM LockEvent.step held

/-- The events take a free lock back to a free lock and are all allowed. -/
def Disciplined (events : List (LockEvent T)) : Prop := lockHeld false events = some false

instance (events : List (LockEvent T)) : Decidable (Disciplined events) :=
  inferInstanceAs (Decidable (lockHeld false events = some false))

/-- What is done while the lock is held, with the acquisition and the release. -/
def critical (targets : List T) : List (LockEvent T) :=
  .acquire :: (targets.map .modify ++ [.release])

/-- Modifications leave a held lock held. -/
theorem lockHeld_modify (targets : List T) (rest : List (LockEvent T)) :
    lockHeld true (targets.map .modify ++ rest) = lockHeld true rest := by
  induction targets with
  | nil => rfl
  | cons target targets ih => exact ih

/-- A critical section keeps the discipline. -/
theorem disciplined_critical (targets : List T) : Disciplined (critical targets) :=
  lockHeld_modify targets [.release]

/-- A lock that is not held cannot be released. -/
theorem not_disciplined_release (rest : List (LockEvent T)) : ¬ Disciplined (.release :: rest) := by
  intro h
  cases h

/-- What a lock protects cannot be modified after nothing but its initialisation. -/
theorem not_disciplined_init_modify (target : T) (rest : List (LockEvent T)) :
    ¬ Disciplined (.init :: .modify target :: rest) := by
  intro h
  cases h

end VirtualFirmware.Library
