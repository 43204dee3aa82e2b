import Mathlib.Logic.Basic
import Mathlib.Tactic.Common

/-!
# Programs that wait for replies

A program performs an operation and continues with the reply it is given. The replies are
not computed here: one program is read against every possible reply, against a fixed
table of replies, or against a stateful handler that may leave the program blocked.
-/

namespace VirtualFirmware.Library

/-- A finite program over the operations `Op`, waiting for a `Reply op` after each one. -/
inductive Interaction (Op : Type) (Reply : Op → Type) (A : Type) where
  | pure (value : A)
  | perform (op : Op) (next : Reply op → Interaction Op Reply A)

namespace Interaction

variable {Op : Type} {Reply : Op → Type} {A B S : Type}

/-- Continue with `after` once the first program has returned. -/
def bind : Interaction Op Reply A → (A → Interaction Op Reply B) → Interaction Op Reply B
  | .pure value, after => after value
  | .perform op next, after => .perform op fun reply => bind (next reply) after

instance : Monad (Interaction Op Reply) where
  pure := .pure
  bind := bind

/-- The program that performs one operation and returns its reply. -/
def ask (op : Op) : Interaction Op Reply (Reply op) := .perform op .pure

/-- A returned value is passed straight to the continuation. -/
@[simp] theorem pure_bind (value : A) (after : A → Interaction Op Reply B) :
    (Interaction.pure value >>= after) = after value := rfl

/-- The continuation is pushed below the first operation. -/
@[simp] theorem perform_bind (op : Op) (next : Reply op → Interaction Op Reply A)
    (after : A → Interaction Op Reply B) :
    (Interaction.perform op next >>= after) = .perform op fun reply => next reply >>= after := rfl

/-- The monad's return is the constructor. -/
@[simp] theorem return_eq (value : A) :
    (Pure.pure value : Interaction Op Reply A) = .pure value := rfl

/-- Sequences may be regrouped. -/
theorem bind_assoc {C : Type} (program : Interaction Op Reply A)
    (first : A → Interaction Op Reply B) (second : B → Interaction Op Reply C) :
    (program >>= first >>= second) = program >>= fun value => first value >>= second := by
  induction program with
  | pure value => rfl
  | perform op next ih =>
    simp only [perform_bind]
    exact congrArg _ (funext ih)

/-- Nothing remains to be done after returning. -/
theorem bind_pure (program : Interaction Op Reply A) :
    (program >>= Interaction.pure) = program := by
  induction program with
  | pure value => rfl
  | perform op next ih =>
    simp only [perform_bind]
    exact congrArg _ (funext ih)

/-- The condition holds of the returned value whatever the replies are. -/
def Always (condition : A → Prop) : Interaction Op Reply A → Prop
  | .pure value => condition value
  | .perform _ next => ∀ reply, Always condition (next reply)

/-- The outcomes of a sequence are the outcomes of its second part after each first outcome. -/
theorem always_bind (condition : B → Prop) (program : Interaction Op Reply A)
    (after : A → Interaction Op Reply B) :
    Always condition (program >>= after) ↔
      Always (fun value => Always condition (after value)) program := by
  induction program with
  | pure value => rfl
  | perform op next ih => exact forall_congr' ih

/-- A condition on every outcome may be weakened. -/
theorem Always.mono {strong weak : A → Prop} {program : Interaction Op Reply A}
    (h : Always strong program) (himp : ∀ value, strong value → weak value) :
    Always weak program := by
  induction program with
  | pure value => exact himp value h
  | perform op next ih => exact fun reply => ih reply (h reply)

/-- A condition on all values holds of every outcome. -/
theorem always_of_forall {condition : A → Prop} (h : ∀ value, condition value)
    (program : Interaction Op Reply A) :
    Always condition program := by
  induction program with
  | pure value => exact h value
  | perform op next ih => exact ih

/-- Two conditions that hold of every outcome hold together. -/
theorem Always.and {left right : A → Prop} {program : Interaction Op Reply A}
    (hl : Always left program) (hr : Always right program) :
    Always (fun value => left value ∧ right value) program := by
  induction program with
  | pure value => exact ⟨hl, hr⟩
  | perform op next ih => exact fun reply => ih reply (hl reply) (hr reply)

/-- Run the program on a fixed reply for each operation. -/
def resolve (reply : ∀ op, Reply op) : Interaction Op Reply A → A
  | .pure value => value
  | .perform op next => resolve reply (next (reply op))

/-- On fixed replies a sequence runs its second part from where the first part ended. -/
theorem resolve_bind (reply : ∀ op, Reply op) (program : Interaction Op Reply A)
    (after : A → Interaction Op Reply B) :
    (program >>= after).resolve reply = (after (program.resolve reply)).resolve reply := by
  induction program with
  | pure value => rfl
  | perform op next ih => exact ih (reply op)

/-- The outcome on fixed replies is one of the outcomes. -/
theorem Always.resolve {condition : A → Prop} {program : Interaction Op Reply A}
    (h : Always condition program) (reply : ∀ op, Reply op) :
    condition (program.resolve reply) := by
  induction program with
  | pure value => exact h
  | perform op next ih => exact ih (reply op) (h (reply op))

/-- A condition that does not depend on the outcome can be taken out. -/
theorem always_and_left (reply : ∀ op, Reply op) {fixed : Prop} {condition : A → Prop}
    {program : Interaction Op Reply A} :
    Always (fun value => fixed ∧ condition value) program ↔ fixed ∧ Always condition program := by
  constructor
  · intro h
    exact ⟨(h.resolve reply).1, h.mono fun _ hvalue => hvalue.2⟩
  · rintro ⟨hfixed, h⟩
    exact h.mono fun _ hvalue => ⟨hfixed, hvalue⟩

/-- A condition that is equivalent to a fixed one in every outcome holds always exactly if that
does. -/
theorem always_iff_fixed (reply : ∀ op, Reply op) {fixed : Prop} {condition : A → Prop}
    {program : Interaction Op Reply A} (h : Always (fun value => condition value ↔ fixed) program) :
    Always condition program ↔ fixed := by
  constructor
  · intro hall
    exact (h.resolve reply).mp (hall.resolve reply)
  · intro hfixed
    exact h.mono fun value hvalue => hvalue.mpr hfixed

/-- Equivalent conditions hold of the same programs. -/
theorem always_congr {left right : A → Prop} (h : ∀ value, left value ↔ right value)
    (program : Interaction Op Reply A) : Always left program ↔ Always right program :=
  ⟨fun hleft => hleft.mono fun value => (h value).mp, fun hright => hright.mono fun value =>
    (h value).mpr⟩

/-- The program returns the value for some replies. -/
inductive Returns : Interaction Op Reply A → A → Prop
  | pure (value : A) : Returns (.pure value) value
  | perform {op : Op} {next : Reply op → Interaction Op Reply A} {reply : Reply op} {value : A}
      (rest : Returns (next reply) value) : Returns (.perform op next) value

/-- What holds of every outcome holds of each value returned. -/
theorem Always.returns {condition : A → Prop} {program : Interaction Op Reply A} {value : A}
    (h : Always condition program) (hreturns : Returns program value) : condition value := by
  induction hreturns with
  | pure value => exact h
  | perform _ ih => exact ih (h _)

/-- A sequence returns what its second part returns after some outcome of the first. -/
theorem returns_bind {program : Interaction Op Reply A} {after : A → Interaction Op Reply B}
    {value : B} (h : Returns (program >>= after) value) :
    ∃ middle, Returns program middle ∧ Returns (after middle) value := by
  induction program with
  | pure first => exact ⟨first, .pure first, h⟩
  | perform op next ih =>
    cases h with
    | perform rest =>
      obtain ⟨middle, hfirst, hsecond⟩ := ih _ rest
      exact ⟨middle, .perform hfirst, hsecond⟩

/-- The outcome on fixed replies is returned. -/
theorem returns_resolve (reply : ∀ op, Reply op) (program : Interaction Op Reply A) :
    Returns program (program.resolve reply) := by
  induction program with
  | pure value => exact .pure value
  | perform op next ih => exact .perform (ih (reply op))

/-- Run the program against a stateful handler; `none` means that an operation never returns. -/
def runWith (handle : (op : Op) → S → Option (Reply op × S)) :
    Interaction Op Reply A → S → Option (A × S)
  | .pure value, state => some (value, state)
  | .perform op next, state =>
    (handle op state).bind fun result => runWith handle (next result.1) result.2

/-- A handler that always gives the same reply runs the program on those replies. -/
theorem runWith_resolve (reply : ∀ op, Reply op) (program : Interaction Op Reply A) (state : S) :
    program.runWith (fun op state => some (reply op, state)) state =
      some (program.resolve reply, state) := by
  induction program with
  | pure value => rfl
  | perform op next ih => exact ih (reply op)

end Interaction

end VirtualFirmware.Library
