import VirtualFirmware.Library.Keeps

/-!
# Relations between programs

Code that is stated over abstract operations can be read with two meanings of them. A relation
between programs of two kinds that returning a value and sequences respect holds between the two
readings if it holds between the operations. An invariant of the programs of one kind is such a
relation that does not look at the other program.
-/

namespace VirtualFirmware.Library

/-- A relation between programs of two kinds that returning a value and sequences respect. -/
structure ProgramRelation (M N : Type → Type) [Monad M] [Monad N] where
  Holds : {A : Type} → M A → N A → Prop
  pure : ∀ {A : Type} (value : A), Holds (Pure.pure value) (Pure.pure value)
  bind : ∀ {A B : Type} {x : M A} {y : N A} {next : A → M B} {next' : A → N B}, Holds x y →
    (∀ value, Holds (next value) (next' value)) → Holds (x >>= next) (y >>= next')

/-- Both sides of a case distinction have to be related. -/
theorem ProgramRelation.ite {M N : Type → Type} [Monad M] [Monad N] (r : ProgramRelation M N)
    {A : Type} {check : Prop} [Decidable check] {first second : M A} {first' second' : N A}
    (hfirst : r.Holds first first') (hsecond : r.Holds second second') :
    r.Holds (if check then first else second) (if check then first' else second') := by
  split
  · exact hfirst
  · exact hsecond

/-- The first program keeps the invariant. -/
def ProgramRelation.keeps {S Op : Type} {Reply : Op → Type} (inv : S → Prop) :
    ProgramRelation (StateT S (Interaction Op Reply)) (StateT S (Interaction Op Reply)) where
  Holds x _ := Keeps inv x
  pure := Keeps.pure
  bind := Keeps.bind

end VirtualFirmware.Library
