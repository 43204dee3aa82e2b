import VirtualFirmware.Library.Interaction

/-!
# The operations a program asks for

A program that asks only for operations of some kind can be run where only those have a reply.
-/

namespace VirtualFirmware.Library.Interaction

variable {Op : Type} {Reply : Op → Type} {A B : Type}

/-- Every operation of every run satisfies the condition. -/
def Asks (condition : Op → Prop) : Interaction Op Reply A → Prop
  | .pure _ => True
  | .perform op next => condition op ∧ ∀ reply, Asks condition (next reply)

/-- A sequence asks for what its first part asks for, and after each outcome its second part. -/
theorem asks_bind (condition : Op → Prop) (program : Interaction Op Reply A)
    (after : A → Interaction Op Reply B) :
    Asks condition (program >>= after) ↔
      Asks condition program ∧ Always (fun value => Asks condition (after value)) program := by
  induction program with
  | pure value => exact (and_iff_right trivial).symm
  | perform op next ih =>
    have hnext : (∀ reply, Asks condition (next reply >>= after)) ↔
        (∀ reply, Asks condition (next reply)) ∧
          ∀ reply, Always (fun value => Asks condition (after value)) (next reply) := by
      rw [← forall_and]
      exact forall_congr' ih
    exact (and_congr_right' hnext).trans and_assoc.symm

/-- A condition on the operations may be weakened. -/
theorem Asks.mono {strong weak : Op → Prop} {program : Interaction Op Reply A}
    (h : Asks strong program) (himp : ∀ op, strong op → weak op) : Asks weak program := by
  induction program with
  | pure value => trivial
  | perform op next ih => exact ⟨himp op h.1, fun reply => ih reply (h.2 reply)⟩

/-- Run the program on replies of which some are missing. -/
def attempt (reply : ∀ op, Option (Reply op)) : Interaction Op Reply A → Option A
  | .pure value => some value
  | .perform op next => (reply op).bind fun given => attempt reply (next given)

/-- Nothing is missing if there is a reply to everything that is asked for. -/
theorem Asks.attempt_eq {condition : Op → Prop} {program : Interaction Op Reply A}
    (h : Asks condition program) {given : ∀ op, Option (Reply op)} {reply : ∀ op, Reply op}
    (hreply : ∀ op, condition op → given op = some (reply op)) :
    program.attempt given = some (program.resolve reply) := by
  induction program with
  | pure value => rfl
  | perform op next ih =>
    rw [attempt, hreply op h.1, Option.bind_some]
    exact ih (reply op) (h.2 (reply op))

end VirtualFirmware.Library.Interaction
