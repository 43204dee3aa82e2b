import VirtualFirmware.Library.Interaction

/-!
# The calls of a run

Besides the value it returns, a run of a program has the state in which it stops, whether it
returned or waits, and the operations it performed with their replies. Conditions on these are
stated by recursion on the program, and hold of a run with given replies.
-/

namespace VirtualFirmware.Library.Interaction

variable {Op : Type} {Reply : Op → Type} {A B S : Type}

/-- The state in which the program returns, or waits for an operation that never returns. -/
def reached (handle : (op : Op) → S → Option (Reply op × S)) : Interaction Op Reply A → S → S
  | .pure _, state => state
  | .perform op next, state =>
    match handle op state with
    | none => state
    | some (reply, state') => reached handle (next reply) state'

/-- The condition holds of every operation of the run, with its reply if it returns. -/
def EveryCall (handle : (op : Op) → S → Option (Reply op × S))
    (condition : (op : Op) → Option (Reply op) → Prop) : Interaction Op Reply A → S → Prop
  | .pure _, _ => True
  | .perform op next, state =>
    match handle op state with
    | none => condition op none
    | some (reply, state') => condition op (some reply) ∧
        EveryCall handle condition (next reply) state'

/-- An operation that returns is followed by the rest of the run. -/
theorem everyCall_ask {handle : (op : Op) → S → Option (Reply op × S)}
    {condition : (op : Op) → Option (Reply op) → Prop} {op : Op} {reply : Reply op}
    {state state' : S}
    (h : handle op state = some (reply, state')) (next : Reply op → Interaction Op Reply A) :
    EveryCall handle condition (ask op >>= next) state ↔
      condition op (some reply) ∧ EveryCall handle condition (next reply) state' := by
  change EveryCall handle condition (.perform op next) state ↔ _
  rw [EveryCall, h]

/-- An operation that does not return is the last of the run. -/
theorem everyCall_ask_of_none {handle : (op : Op) → S → Option (Reply op × S)}
    {condition : (op : Op) → Option (Reply op) → Prop} {op : Op} {state : S}
    (h : handle op state = none)
    (next : Reply op → Interaction Op Reply A) :
    EveryCall handle condition (ask op >>= next) state ↔ condition op none := by
  change EveryCall handle condition (.perform op next) state ↔ _
  rw [EveryCall, h]

/-- The program performs these operations, gets these replies, and returns the value. -/
inductive Performs : Interaction Op Reply A → List (Sigma Reply) → A → Prop
  | pure (value : A) : Performs (.pure value) [] value
  | perform {op : Op} {next : Reply op → Interaction Op Reply A} {reply : Reply op}
      {calls : List (Sigma Reply)} {value : A} (rest : Performs (next reply) calls value) :
      Performs (.perform op next) (⟨op, reply⟩ :: calls) value

/-- The condition holds of the calls and the value of every run, whatever the replies are. -/
def EveryRun (condition : List (Sigma Reply) → A → Prop) : Interaction Op Reply A → Prop
  | .pure value => condition [] value
  | .perform op next =>
    ∀ reply, EveryRun (fun calls value => condition (⟨op, reply⟩ :: calls) value) (next reply)

/-- What holds of every run holds of one with given replies. -/
theorem EveryRun.performs {condition : List (Sigma Reply) → A → Prop}
    {program : Interaction Op Reply A} {calls : List (Sigma Reply)} {value : A}
    (h : EveryRun condition program)
    (hperforms : Performs program calls value) : condition calls value := by
  induction hperforms generalizing condition with
  | pure value => exact h
  | perform rest ih => exact ih (h _)

/-- A condition on every run may be weakened. -/
theorem EveryRun.mono {strong weak : List (Sigma Reply) → A → Prop}
    {program : Interaction Op Reply A} (h : EveryRun strong program)
    (himp : ∀ calls value, strong calls value → weak calls value) :
    EveryRun weak program := by
  induction program generalizing strong weak with
  | pure value => exact himp [] value h
  | perform op next ih => exact fun reply => ih reply (h reply) fun calls => himp _

/-- A program that goes on after every run without a further operation has made the same calls. -/
theorem EveryRun.bind_pure {first : List (Sigma Reply) → A → Prop}
    {second : List (Sigma Reply) → B → Prop} {program : Interaction Op Reply A}
    {after : A → Interaction Op Reply B} (h : EveryRun first program)
    (hafter : ∀ calls value, first calls value →
      ∃ result, after value = .pure result ∧ second calls result) :
    EveryRun second (program >>= after) := by
  induction program generalizing first second with
  | pure value =>
    obtain ⟨result, hresult, hsecond⟩ := hafter [] value h
    rw [pure_bind, hresult]
    exact hsecond
  | perform op next ih => exact fun reply => ih reply (h reply) fun calls value => hafter _ value

/-- An operation joins those performed before. -/
theorem everyRun_after {condition : List (Sigma Reply) → A → Prop} {calls : List (Sigma Reply)}
    {op : Op} {next : Reply op → Interaction Op Reply A}
    (h : ∀ reply, (next reply).EveryRun fun rest => condition (calls ++ [⟨op, reply⟩] ++ rest)) :
    EveryRun (fun rest => condition (calls ++ rest)) (.perform op next) := fun reply =>
  (h reply).mono fun rest value hvalue => by
    rwa [List.append_assoc, List.singleton_append] at hvalue

/-- A case distinction has to be right on both sides. -/
theorem everyRun_ite {condition : List (Sigma Reply) → A × S → Prop} {check : Prop}
    [Decidable check] {first second : StateT S (Interaction Op Reply) A} {s : S}
    (hfirst : (first s).EveryRun condition) (hsecond : (second s).EveryRun condition) :
    ((if check then first else second) s).EveryRun condition := by
  split
  · exact hfirst
  · exact hsecond

/-- A condition on the returned value that holds whatever the replies are holds in every run. -/
theorem Always.everyRun {condition : A → Prop} {program : Interaction Op Reply A}
    (h : Always condition program) : EveryRun (fun _ => condition) program := by
  induction program with
  | pure value => exact h
  | perform op next ih => exact fun reply => ih reply (h reply)

/-- Two conditions that hold of every run hold together. -/
theorem EveryRun.and {left right : List (Sigma Reply) → A → Prop} {program : Interaction Op Reply A}
    (hl : EveryRun left program) (hr : EveryRun right program) :
    EveryRun (fun calls value => left calls value ∧ right calls value) program := by
  induction program generalizing left right with
  | pure value => exact ⟨hl, hr⟩
  | perform op next ih => exact fun reply => ih reply (hl reply) (hr reply)

/-- A program that goes on after a run without a further operation has made the same calls. -/
theorem Performs.bind_pure {program : Interaction Op Reply A} {after : A → Interaction Op Reply B}
    {calls : List (Sigma Reply)} {value : A} {result : B} (h : Performs program calls value)
    (hafter : after value = .pure result) : Performs (program >>= after) calls result := by
  induction h with
  | pure value =>
    rw [pure_bind, hafter]
    exact .pure result
  | perform _ ih => exact .perform (ih hafter)

/-- The calls of the run on fixed replies. -/
def performed (reply : ∀ op, Reply op) : Interaction Op Reply A → List (Sigma Reply)
  | .pure _ => []
  | .perform op next => ⟨op, reply op⟩ :: performed reply (next (reply op))

/-- On fixed replies the program makes these calls and returns its value on these replies. -/
theorem performs_resolve (reply : ∀ op, Reply op) (program : Interaction Op Reply A) :
    Performs program (program.performed reply) (program.resolve reply) := by
  induction program with
  | pure value => exact .pure value
  | perform op next ih => exact .perform (ih (reply op))

/-- The calls with their replies determine what is returned. -/
theorem Performs.unique {program : Interaction Op Reply A} {calls : List (Sigma Reply)}
    {first second : A} (hfirst : Performs program calls first)
    (hsecond : Performs program calls second) : first = second := by
  induction hfirst with
  | pure value =>
    cases hsecond
    rfl
  | perform _ ih =>
    cases hsecond with
    | perform rest => exact ih rest

end VirtualFirmware.Library.Interaction
