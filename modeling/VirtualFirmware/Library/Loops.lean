import Mathlib.Tactic.Common

/-!
# Loops that may not end

A loop runs its body until the body leaves it. The number of rounds is limited by a number, and a
run that would need more rounds is marked as such. A loop that keeps an invariant under which the
body never leaves it returns under no limit.
-/

namespace VirtualFirmware.Library

variable {S R E A B : Type}

/-- Whatever is returned satisfies the condition. -/
def Ensures (post : A → Prop) (result : Except E A) : Prop :=
  ∀ value, result = .ok value → post value

/-- A value that is returned satisfies the condition. -/
theorem Ensures.ok {post : A → Prop} {value : A} (h : post value) :
    Ensures post (.ok value : Except E A) := by
  rintro _ ⟨⟩
  exact h

/-- A failure returns nothing. -/
theorem Ensures.error {post : A → Prop} (e : E) : Ensures post (.error e : Except E A) :=
  fun _ h => by cases h

instance {post : A → Prop} [DecidablePred post] :
    (result : Except E A) → Decidable (Ensures post result)
  | .error e => .isTrue (.error e)
  | .ok value => decidable_of_iff (post value) ⟨.ok, fun h => h value rfl⟩

/-- A weaker condition is satisfied as well. -/
theorem Ensures.mono {post weaker : A → Prop} {result : Except E A} (h : Ensures post result)
    (himp : ∀ value, post value → weaker value) : Ensures weaker result :=
  fun value hvalue => himp value (h value hvalue)

/-- What follows may rely on what was returned. -/
theorem Ensures.bind {post : A → Prop} {after : B → Prop} {first : Except E A}
    {next : A → Except E B} (hfirst : Ensures post first)
    (hnext : ∀ value, post value → Ensures after (next value)) :
    Ensures after (first >>= next) := by
  cases first with
  | error e => exact Ensures.error e
  | ok value => exact hnext value (hfirst value rfl)

/-- A condition carries over to a function of what is returned. -/
theorem Ensures.map {post : A → Prop} {after : B → Prop} {result : Except E A} {f : A → B}
    (h : Ensures post result) (hf : ∀ value, post value → after (f value)) :
    Ensures after (result.map f) := by
  cases result with
  | error e => exact Ensures.error e
  | ok value => exact Ensures.ok (hf value (h value rfl))

/-- Two continuations that agree on what can be returned. -/
theorem Ensures.bind_congr {post : A → Prop} {result : Except E A} {first second : A → Except E B}
    (h : Ensures post result) (hnext : ∀ value, post value → first value = second value) :
    (result >>= first) = result >>= second := by
  cases result with
  | error e => rfl
  | ok value => exact hnext value (h value rfl)

/-- Run the body until it leaves the loop with a result, for at most `fuel` rounds. -/
def loop (spent : E) (body : S → Except E (S ⊕ R)) : (fuel : ℕ) → S → Except E R
  | 0, _ => .error spent
  | fuel + 1, s => body s >>= fun
    | .inl next => loop spent body fuel next
    | .inr result => .ok result

section Rounds

variable {spent : E} {body : S → Except E (S ⊕ R)} {s : S}

/-- A round that goes on is followed by the rest of the loop. -/
theorem loop_of_inl {next : S} (h : body s = .ok (.inl next)) (fuel : ℕ) :
    loop spent body (fuel + 1) s = loop spent body fuel next := by
  rw [loop, h]
  rfl

/-- A round that leaves the loop gives its result. -/
theorem loop_of_inr {result : R} (h : body s = .ok (.inr result)) (fuel : ℕ) :
    loop spent body (fuel + 1) s = .ok result := by
  rw [loop, h]
  rfl

/-- A round that fails ends the loop. -/
theorem loop_of_error {e : E} (h : body s = .error e) (fuel : ℕ) :
    loop spent body (fuel + 1) s = .error e := by
  rw [loop, h]
  rfl

/-- A condition that every round keeps, up to the one that leaves, holds of the result. -/
theorem loop_ensures (invariant : S → Prop) (post : R → Prop)
    (hround : ∀ s, invariant s → Ensures (Sum.elim invariant post) (body s)) (hs : invariant s)
    (fuel : ℕ) :
    Ensures post (loop spent body fuel s) := by
  induction fuel generalizing s with
  | zero => exact Ensures.error spent
  | succ fuel ih =>
    refine (hround s hs).bind fun exit hexit => ?_
    cases exit with
    | inl next => exact ih hexit
    | inr result => exact Ensures.ok hexit

/-- A loop whose body keeps an invariant and never leaves under it does not return. -/
theorem loop_ne_ok (invariant : S → Prop)
    (hround : ∀ s, invariant s → Ensures (Sum.elim invariant fun _ => False) (body s))
    (hs : invariant s)
    (fuel : ℕ) (result : R) : loop spent body fuel s ≠ .ok result :=
  fun hreturn => loop_ensures invariant (fun _ => False) hround hs fuel result hreturn

/-- A loop returns if every round that goes on keeps the invariant and lowers a measure, and no
round fails. -/
theorem loop_returns (invariant : S → Prop) (measure : S → ℕ)
    (hround : ∀ s, invariant s → (∃ result, body s = .ok (.inr result)) ∨
      ∃ next, body s = .ok (.inl next) ∧ invariant next ∧ measure next < measure s)
    (hs : invariant s) {fuel : ℕ} (hfuel : measure s < fuel) :
    ∃ result, loop spent body fuel s = .ok result := by
  induction fuel generalizing s with
  | zero => omega
  | succ fuel ih =>
    rcases hround s hs with ⟨result, hbody⟩ | ⟨next, hbody, hnext, hless⟩
    · exact ⟨result, loop_of_inr hbody fuel⟩
    · rw [loop_of_inl hbody]
      exact ih hnext (by omega)

end Rounds

/-- A change of state that every round commutes with passes through the loop. -/
theorem loop_map {spent : E} {body : S → Except E (S ⊕ R)} (onState : S → S) (onResult : R → R)
    (h : ∀ s, body (onState s) = (body s).map (Sum.map onState onResult)) (fuel : ℕ) (s : S) :
    loop spent body fuel (onState s) = (loop spent body fuel s).map onResult := by
  induction fuel generalizing s with
  | zero => rfl
  | succ fuel ih =>
    have hround := h s
    cases hbody : body s with
    | error e =>
      rw [hbody] at hround
      rw [loop_of_error hround, loop_of_error hbody]
      rfl
    | ok exit =>
      rw [hbody] at hround
      cases exit with
      | inl next => rw [loop_of_inl hround, loop_of_inl hbody, ih]
      | inr result =>
        rw [loop_of_inr hround, loop_of_inr hbody]
        rfl

end VirtualFirmware.Library
