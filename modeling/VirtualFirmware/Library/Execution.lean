import Mathlib.Logic.Relation
import VirtualFirmware.Library.Interaction

/-!
# Programs against an environment, one after another

An environment answers each operation by a relation between its states. A program keeps an
invariant throughout if the environment satisfies it before every operation and at the end,
whatever the answers are. When one program has returned, another may be issued; invariants
and postconditions then carry over from one program to the next.
-/

namespace VirtualFirmware.Library

/-- A program and the environment it runs in. -/
structure Execution (Op : Type) (Reply : Op → Type) (A S : Type) where
  program : Interaction Op Reply A
  env : S

section Execution

variable {Op : Type} {Reply : Op → Type} {A S : Type}
  (handle : (op : Op) → S → Reply op → S → Prop)

/-- The environment satisfies the invariant at every point of the program, and the result
satisfies the postcondition. -/
def Throughout (inv : S → Prop) (post : A → S → Prop) : Interaction Op Reply A → S → Prop
  | .pure value, s => inv s ∧ post value s
  | .perform op next, s =>
    inv s ∧ ∀ reply s', handle op s reply s' → Throughout inv post (next reply) s'

variable {handle} {inv : S → Prop} {post : A → S → Prop}

/-- The invariant holds where the program starts. -/
theorem Throughout.start {program : Interaction Op Reply A} {s : S}
    (h : Throughout handle inv post program s) : inv s := by
  cases program with
  | pure value => exact h.1
  | perform op next => exact h.1

variable (handle) in
/-- The program runs until it returns, and then one of the programs that may follow is issued. -/
inductive Advance (follows : A → Interaction Op Reply A → Prop) :
    Execution Op Reply A S → Execution Op Reply A S → Prop
  | call {op : Op} {next : Reply op → Interaction Op Reply A} {reply : Reply op} {s s' : S}
      (h : handle op s reply s') : Advance follows ⟨.perform op next, s⟩ ⟨next reply, s'⟩
  | issue {value : A} {program : Interaction Op Reply A} {s : S} (h : follows value program) :
      Advance follows ⟨.pure value, s⟩ ⟨program, s⟩

/-- A call of a program that is known to make it. -/
theorem Advance.of_handle {follows : A → Interaction Op Reply A → Prop} {op : Op} {reply : Reply op}
    {s s' : S} (h : handle op s reply s') {program after : Interaction Op Reply A}
    {next : Reply op → Interaction Op Reply A} (hprogram : program = .perform op next)
    (hafter : next reply = after) : Advance handle follows ⟨program, s⟩ ⟨after, s'⟩ := by
  subst hprogram hafter
  exact .call h

/-- If every program that may follow keeps the invariant where its predecessor returned, every
step does. -/
theorem Throughout.advance {follows : A → Interaction Op Reply A → Prop}
    (hfollows : ∀ value program s, follows value program → inv s → post value s →
      Throughout handle inv post program s)
    {e e' : Execution Op Reply A S} (h : Throughout handle inv post e.program e.env)
    (hstep : Advance handle follows e e') : Throughout handle inv post e'.program e'.env := by
  cases hstep with
  | call hhandle => exact h.2 _ _ hhandle
  | issue hissue => exact hfollows _ _ _ hissue h.1 h.2

/-- If every program that may follow keeps the invariant where its predecessor returned, every
run does. -/
theorem Throughout.reaches {follows : A → Interaction Op Reply A → Prop}
    (hfollows : ∀ value program s, follows value program → inv s → post value s →
      Throughout handle inv post program s)
    {e e' : Execution Op Reply A S} (h : Throughout handle inv post e.program e.env)
    (hrun : Relation.ReflTransGen (Advance handle follows) e e') :
    Throughout handle inv post e'.program e'.env := by
  induction hrun with
  | refl => exact h
  | tail _ hstep ih => exact ih.advance hfollows hstep

end Execution

end VirtualFirmware.Library
