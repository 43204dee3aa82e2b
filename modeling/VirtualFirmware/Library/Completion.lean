import VirtualFirmware.Library.Keeps

/-!
# Programs that may stop early

A program with a state either returns a value or stops with a reason, and keeps its state in both
cases. What it does before it goes on is stated as a condition on the value and the state of the
runs that return; the program completes if there are no others.
-/

namespace VirtualFirmware.Library

variable {Op : Type} {Reply : Op → Type} {S E A B : Type}

/-- The outcomes of a sequence: an early stop of its first part, or those of its second part. -/
theorem always_chain {condition : Except E B × S → Prop}
    {x : ExceptT E (StateT S (Interaction Op Reply)) A}
    {next : A → ExceptT E (StateT S (Interaction Op Reply)) B} {s : S} :
    Interaction.Always condition ((x >>= next) s) ↔
      Interaction.Always (fun result => match result.1 with
        | .ok value => Interaction.Always condition (next value result.2)
        | .error reason => condition (.error reason, result.2)) (x s) := by
  have hbind : ((x >>= next) s : Interaction Op Reply (Except E B × S)) =
      x s >>= fun result => ExceptT.bindCont next result.1 result.2 := rfl
  rw [hbind, Interaction.always_bind]
  refine ⟨fun h => h.mono ?_, fun h => h.mono ?_⟩
  · rintro ⟨_ | value, s'⟩ h
    · exact h
    · exact h
  · rintro ⟨_ | value, s'⟩ h
    · exact h
    · exact h

/-- The invariant holds after the program if it held before, also when the program stops. -/
def Maintains (inv : S → Prop) (x : ExceptT E (StateT S (Interaction Op Reply)) A) : Prop :=
  ∀ s, inv s → Interaction.Always (fun result => inv result.2) (x s)

namespace Maintains

variable {inv : S → Prop}

/-- Returning a value changes nothing. -/
theorem pure (value : A) :
    Maintains inv (Pure.pure value : ExceptT E (StateT S (Interaction Op Reply)) A) :=
  fun _ h => h

/-- Both parts of a sequence have to maintain the invariant. -/
theorem bind {x : ExceptT E (StateT S (Interaction Op Reply)) A}
    {next : A → ExceptT E (StateT S (Interaction Op Reply)) B} (hx : Maintains inv x)
    (hnext : ∀ value, Maintains inv (next value)) : Maintains inv (x >>= next) := by
  intro s h
  rw [always_chain]
  refine (hx s h).mono ?_
  rintro ⟨_ | value, s'⟩ hs'
  · exact hs'
  · exact hnext value s' hs'

/-- Both sides of a case distinction have to maintain it. -/
theorem ite {check : Prop} [Decidable check]
    {first second : ExceptT E (StateT S (Interaction Op Reply)) A} (hfirst : Maintains inv first)
    (hsecond : Maintains inv second) :
    Maintains inv (if check then first else second) := fun s h =>
  always_ite (fun _ => hfirst s h) fun _ => hsecond s h

/-- What holds in every case after the program is decided by what follows it. -/
theorem always_bind {condition : Except E B × S → Prop}
    {x : ExceptT E (StateT S (Interaction Op Reply)) A}
    {next : A → ExceptT E (StateT S (Interaction Op Reply)) B} {s : S}
    (hx : Maintains inv x) (h : inv s)
    (hstop : ∀ reason s', inv s' → condition (.error reason, s'))
    (hnext : ∀ value s', inv s' → Interaction.Always condition (next value s')) :
    Interaction.Always condition ((x >>= next) s) := by
  rw [always_chain]
  refine (hx s h).mono ?_
  rintro ⟨reason | value, s'⟩ hs'
  · exact hstop reason s' hs'
  · exact hnext value s' hs'

end Maintains

/-- After a program that returns without an operation comes what follows. -/
theorem chain_of_eq {x : ExceptT E (StateT S (Interaction Op Reply)) A} {s s' : S} {value : A}
    (h : x s = .pure (.ok value, s')) (next : A → ExceptT E (StateT S (Interaction Op Reply)) B) :
    (x >>= next) s = next value s' := by
  change (x s >>= fun result => ExceptT.bindCont next result.1 result.2) = _
  rw [h]
  rfl

/-- Nothing comes after a program that stops without an operation. -/
theorem chain_of_stop {x : ExceptT E (StateT S (Interaction Op Reply)) A} {s s' : S} {reason : E}
    (h : x s = .pure (.error reason, s'))
    (next : A → ExceptT E (StateT S (Interaction Op Reply)) B) :
    (x >>= next) s = .pure (.error reason, s') := by
  change (x s >>= fun result => ExceptT.bindCont next result.1 result.2) = _
  rw [h]
  rfl

/-- The program returns in every run, and the condition holds of what it returns and leaves. -/
def Finishes (post : A → S → Prop) (x : ExceptT E (StateT S (Interaction Op Reply)) A)
    (s : S) : Prop :=
  Interaction.Always (fun result => ∃ value, result.1 = .ok value ∧ post value result.2) (x s)

namespace Finishes

variable {post : A → S → Prop} {x : ExceptT E (StateT S (Interaction Op Reply)) A} {s : S}

/-- Returning a value completes. -/
theorem pure {value : A} (h : post value s) :
    Finishes post (Pure.pure value : ExceptT E (StateT S (Interaction Op Reply)) A) s :=
  ⟨value, rfl, h⟩

/-- The condition may be weakened. -/
theorem mono {weak : A → S → Prop} (h : Finishes post x s)
    (himp : ∀ value s', post value s' → weak value s') :
    Finishes weak x s :=
  Interaction.Always.mono h fun _ ⟨value, hvalue, hpost⟩ => ⟨value, hvalue, himp value _ hpost⟩

/-- After a program that completes, the outcomes are those of what follows. -/
theorem always_bind {condition : Except E B × S → Prop}
    {next : A → ExceptT E (StateT S (Interaction Op Reply)) B} (h : Finishes post x s)
    (hnext : ∀ value s', post value s' → Interaction.Always condition (next value s')) :
    Interaction.Always condition ((x >>= next) s) := by
  rw [always_chain]
  refine Interaction.Always.mono h ?_
  rintro ⟨result, s'⟩ ⟨value, rfl, hpost⟩
  exact hnext value s' hpost

/-- After a program that returns without an operation, what follows has to complete. -/
theorem of_eq {post' : B → S → Prop} {next : A → ExceptT E (StateT S (Interaction Op Reply)) B}
    {s' : S} {value : A} (h : x s = .pure (.ok value, s'))
    (hnext : Finishes post' (next value) s') :
    Finishes post' (x >>= next) s := by
  rw [Finishes, chain_of_eq h]
  exact hnext

/-- Both sides of a case distinction have to complete. -/
theorem ite {check : Prop} [Decidable check]
    {first second : ExceptT E (StateT S (Interaction Op Reply)) A}
    (hfirst : check → Finishes post first s) (hsecond : ¬ check → Finishes post second s) :
    Finishes post (if check then first else second) s :=
  always_ite hfirst hsecond

/-- A sequence completes if both of its parts do. -/
theorem bind {post' : B → S → Prop} {next : A → ExceptT E (StateT S (Interaction Op Reply)) B}
    (h : Finishes post x s) (hnext : ∀ value s', post value s' → Finishes post' (next value) s') :
    Finishes post' (x >>= next) s :=
  h.always_bind hnext

end Finishes

end VirtualFirmware.Library
