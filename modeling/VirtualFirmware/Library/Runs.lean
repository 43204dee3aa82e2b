import Mathlib.Logic.Basic
import Mathlib.Tactic.Common

/-!
# Runs of partial steps

A step takes an action and a state and returns a result and the next state, unless the
action cannot return there. A run performs a list of actions in order and collects their
results. Two systems whose steps agree on related states agree on whole runs.
-/

namespace VirtualFirmware.Library

universe u

variable {A B S T : Type u}

/-- Perform the actions in order; `none` once one of them does not return. -/
def runAll (step : A → S → Option (B × S)) : List A → S → Option (List B × S)
  | [], state => some ([], state)
  | action :: rest, state =>
    (step action state).bind fun first =>
      (runAll step rest first.2).map fun later => (first.1 :: later.1, later.2)

/-- Both steps return, with one result and related states, or neither returns. -/
abbrev Agree (related : S → T → Prop) : Option (B × S) → Option (B × T) → Prop :=
  Option.Rel fun left right => left.1 = right.1 ∧ related left.2 right.2

/-- When the left system returns, so does the right one, with the same result. -/
theorem Agree.right_returns {related : S → T → Prop} {result : B} {state : S}
    {right : Option (B × T)} (h : Agree related (some (result, state)) right) :
    ∃ state', right = some (result, state') ∧ related state state' := by
  cases h with
  | @some _ last hrelated =>
    obtain ⟨result', state'⟩ := last
    obtain ⟨rfl, hstates⟩ := hrelated
    exact ⟨state', rfl, hstates⟩

/-- Systems that agree on every single action agree on every run. -/
theorem runAll_agree {related : S → T → Prop} {stepS : A → S → Option (B × S)}
    {stepT : A → T → Option (B × T)}
    (hstep : ∀ action s t, related s t → Agree related (stepS action s) (stepT action t))
    (actions : List A) {s : S} {t : T} (h : related s t) :
    Agree related (runAll stepS actions s) (runAll stepT actions t) := by
  induction actions generalizing s t with
  | nil => exact .some ⟨rfl, h⟩
  | cons action rest ih =>
    rw [runAll, runAll]
    have hfirst := hstep action s t h
    generalize stepS action s = left, stepT action t = right at hfirst
    cases hfirst with
    | none => exact .none
    | @some first first' hagree =>
      have hrest := ih hagree.2
      simp only [Option.bind_some]
      generalize runAll stepS rest first.2 = left, runAll stepT rest first'.2 = right at hrest
      cases hrest with
      | none => exact .none
      | some hlater => exact .some ⟨by simp [hagree.1, hlater.1], hlater.2⟩

/-- A stateful computation that returns hands its value and state to the continuation. -/
theorem stateT_bind_of_some {first : StateT S Option A} {state next : S} {value : A}
    (h : first state = some (value, next)) (after : A → StateT S Option B) :
    (first >>= after) state = after value next := by
  simp only [bind, StateT.bind, h, Option.bind]

/-- A stateful computation that waits makes the whole sequence wait. -/
theorem stateT_bind_of_none {first : StateT S Option A} {state : S} (h : first state = none)
    (after : A → StateT S Option B) : (first >>= after) state = none := by
  simp only [bind, StateT.bind, h, Option.bind]

/-- A sequence that returns does so after its first part has. -/
theorem stateT_bind_eq_some {first : StateT S Option A} {after : A → StateT S Option B}
    {state final : S} {value : B} (h : (first >>= after) state = some (value, final)) :
    ∃ middle next, first state = some (middle, next) ∧ after middle next = some (value, final) := by
  obtain ⟨⟨middle, next⟩, hfirst, hafter⟩ := Option.bind_eq_some_iff.mp h
  exact ⟨middle, next, hfirst, hafter⟩

end VirtualFirmware.Library
