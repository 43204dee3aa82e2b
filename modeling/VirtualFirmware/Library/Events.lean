import Mathlib.Data.Nat.ModEq

/-!
# Runs of events

A system takes a step with every event that reaches it. What every step keeps holds along each run,
and the entries of an account add up.
-/

namespace VirtualFirmware.Library

variable {S E : Type} {step : S → E → S → Prop} {s s' : S} {events : List E}

/-- The events lead from one state to another, in order. -/
inductive EventRun (step : S → E → S → Prop) (s : S) : List E → S → Prop
  | start : EventRun step s [] s
  | next {events : List E} {event : E} {m m' : S} (run : EventRun step s events m)
      (h : step m event m') :
      EventRun step s (events ++ [event]) m'

/-- What every step keeps holds after the run. -/
theorem EventRun.invariant (inv : S → Prop) (hstep : ∀ s event s', step s event s' → inv s → inv s')
    (run : EventRun step s events s') (hs : inv s) : inv s' := by
  induction run with
  | start => exact hs
  | next _ h ih => exact hstep _ _ _ h ih

/-- What the steps of certain events keep holds after a run of such events. -/
theorem EventRun.invariant_of_events (allowed : E → Prop) (inv : S → Prop)
    (hstep : ∀ s event s', step s event s' → allowed event → inv s → inv s')
    (run : EventRun step s events s')
    (hevents : ∀ event ∈ events, allowed event) (hs : inv s) : inv s' := by
  induction run with
  | start => exact hs
  | next _ h ih =>
    refine hstep _ _ _ h (hevents _ (by simp)) (ih fun event hevent => hevents event ?_)
    exact List.mem_append_left _ hevent

/-- If every step keeps a relation to something that takes the events as well, so does the run. -/
theorem EventRun.simulates {A : Type} (next : A → E → A) (rel : A → S → Prop)
    (hstep : ∀ a s event s', step s event s' → rel a s → rel (next a event) s')
    (run : EventRun step s events s')
    {a : A} (ha : rel a s) : rel (events.foldl next a) s' := by
  induction run with
  | start => exact ha
  | next _ h ih =>
    rw [List.foldl_append]
    exact hstep _ _ _ _ h ih

/-- Two entries of an account that is kept modulo some number make one. -/
theorem account_trans {modulus first second third paid paid' earned earned' : ℕ}
    (h : second + paid ≡ first + earned [MOD modulus])
    (h' : third + paid' ≡ second + earned' [MOD modulus]) :
    third + (paid + paid') ≡ first + (earned + earned') [MOD modulus] :=
  calc third + (paid + paid')
      = third + paid' + paid := by omega
    _ ≡ second + earned' + paid [MOD modulus] := h'.add_right _
    _ = second + paid + earned' := by omega
    _ ≡ first + earned + earned' [MOD modulus] := h.add_right _
    _ = first + (earned + earned') := by omega

end VirtualFirmware.Library
