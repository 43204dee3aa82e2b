import VirtualFirmware.Library.Interaction

/-!
# Invariants of programs with a state

A program changes its state and performs operations whose replies come from outside. It keeps
an invariant if the invariant holds afterwards whatever the replies are; sequences and case
distinctions of such programs keep it as well.
-/

namespace VirtualFirmware.Library

variable {Op : Type} {Reply : Op → Type} {S A B : Type}

/-- A case distinction has to be right on both sides. -/
theorem always_ite {condition : A × S → Prop} {check : Prop} [Decidable check] {s : S}
    {first second : StateT S (Interaction Op Reply) A}
    (hfirst : check → Interaction.Always condition (first s))
    (hsecond : ¬ check → Interaction.Always condition (second s)) :
    Interaction.Always condition ((if check then first else second) s) := by
  split
  · exact hfirst ‹_›
  · exact hsecond ‹_›

/-- The outcomes of a sequence are those of its second part in each state the first one leaves. -/
theorem always_sequence {condition : B × S → Prop} {x : StateT S (Interaction Op Reply) A}
    {next : A → StateT S (Interaction Op Reply) B} {s : S} :
    Interaction.Always condition ((x >>= next) s) ↔
      Interaction.Always (fun result => Interaction.Always condition (next result.1 result.2))
        (x s) :=
  Interaction.always_bind condition (x s) fun result => next result.1 result.2

/-- The invariant holds after the program if it held before, whatever the replies are. -/
def Keeps (inv : S → Prop) (x : StateT S (Interaction Op Reply) A) : Prop :=
  ∀ s, inv s → Interaction.Always (fun result => inv result.2) (x s)

namespace Keeps

variable {inv : S → Prop}

/-- Returning a value changes nothing. -/
theorem pure (value : A) : Keeps inv (Pure.pure value : StateT S (Interaction Op Reply) A) :=
  fun _ h => h

/-- Both parts of a sequence have to keep the invariant. -/
theorem bind {x : StateT S (Interaction Op Reply) A} {next : A → StateT S (Interaction Op Reply) B}
    (hx : Keeps inv x) (hnext : ∀ value, Keeps inv (next value)) : Keeps inv (x >>= next) := by
  intro s h
  rw [always_sequence]
  exact (hx s h).mono fun result => hnext result.1 result.2

/-- Both sides of a case distinction have to keep the invariant. -/
theorem ite {check : Prop} [Decidable check] {first second : StateT S (Interaction Op Reply) A}
    (hfirst : Keeps inv first) (hsecond : Keeps inv second) :
    Keeps inv (if check then first else second) := fun s h =>
  always_ite (fun _ => hfirst s h) fun _ => hsecond s h

end Keeps

/-- Carry out a program with a program of another kind for each of its operations. -/
def Interaction.interpret {M : Type → Type} [Monad M] (handle : (op : Op) → M (Reply op)) :
    Interaction Op Reply A → M A
  | .pure value => Pure.pure value
  | .perform op next => handle op >>= fun reply => (next reply).interpret handle

/-- A program keeps the invariant if what is done for each of its operations does. -/
theorem Keeps.interpret {inv : S → Prop} {Op' : Type} {Reply' : Op' → Type}
    {handle : (op : Op') → StateT S (Interaction Op Reply) (Reply' op)}
    (h : ∀ op, Keeps inv (handle op)) (program : Interaction Op' Reply' A) :
    Keeps inv (program.interpret handle) := by
  induction program with
  | pure value => exact .pure value
  | perform op next ih => exact (h op).bind ih

/-- On fixed replies a sequence runs its second part in the state the first one leaves. -/
theorem resolve_sequence (reply : ∀ op, Reply op) (x : StateT S (Interaction Op Reply) A)
    (next : A → StateT S (Interaction Op Reply) B) (s : S) :
    ((x >>= next) s).resolve reply =
      (next ((x s).resolve reply).1 ((x s).resolve reply).2).resolve reply :=
  Interaction.resolve_bind reply (x s) fun result => next result.1 result.2

/-- What holds after the first part of a sequence holds at its end if the second part keeps it. -/
theorem Keeps.resolve_sequence {inv : S → Prop} {reply : ∀ op, Reply op}
    {x : StateT S (Interaction Op Reply) A} {next : A → StateT S (Interaction Op Reply) B} {s : S}
    (hx : inv ((x s).resolve reply).2) (hnext : ∀ value, Keeps inv (next value)) :
    inv (((x >>= next) s).resolve reply).2 := by
  rw [Library.resolve_sequence]
  exact (hnext _ _ hx).resolve reply

end VirtualFirmware.Library
