import Mathlib.Data.List.Nodup
import Mathlib.Data.List.Perm.Basic
import Mathlib.Logic.Function.Basic

/-!
# Tables of handles

A table gives out handles that have not been used before, keeps a value for each until it is
released, and knows nothing of a handle afterwards. What a program owes is a list of the handles
in use, up to their order.
-/

namespace VirtualFirmware.Library

/-- A table of handles; those from `next` on have not been given out. -/
structure Handles (A : Type) where
  value : ℕ → Option A
  next : ℕ
  unused : ∀ handle, next ≤ handle → value handle = none

namespace Handles

variable {A : Type}

section Operations

variable (table : Handles A)

/-- No handle was given out. -/
def empty : Handles A := ⟨fun _ => none, 0, fun _ _ => rfl⟩

/-- Give out the next handle. -/
def acquire (value : A) : Handles A where
  value := Function.update table.value table.next (some value)
  next := table.next + 1
  unused handle h := by
    rw [Function.update_of_ne (by omega)]
    exact table.unused handle (by omega)

/-- Change the value behind a handle that is in use. -/
def modify (handle : ℕ) (f : A → A) : Handles A where
  value := Function.update table.value handle ((table.value handle).map f)
  next := table.next
  unused other h := by
    by_cases heq : other = handle
    · rw [heq, Function.update_self, table.unused handle (heq ▸ h)]
      rfl
    · rw [Function.update_of_ne heq, table.unused other h]

/-- Give a handle back. -/
def release (handle : ℕ) : Handles A where
  value := Function.update table.value handle none
  next := table.next
  unused other h := by
    by_cases heq : other = handle
    · rw [heq, Function.update_self]
    · rw [Function.update_of_ne heq, table.unused other h]

end Operations

variable {table : Handles A} {handles : List ℕ}

/-- A new handle has the value it was given out with. -/
@[simp] theorem acquire_self (value : A) : (table.acquire value).value table.next = some value :=
  Function.update_self _ _ _

/-- Giving out a handle keeps the values of the others. -/
theorem acquire_of_ne (value : A) {handle : ℕ} (h : handle ≠ table.next) :
    (table.acquire value).value handle = table.value handle :=
  Function.update_of_ne h _ _

/-- A handle that is modified has the changed value. -/
theorem modify_self {handle : ℕ} {value : A} (h : table.value handle = some value) (f : A → A) :
    (table.modify handle f).value handle = some (f value) := by
  simp [modify, h]

/-- Modifying a handle keeps the values of the others. -/
theorem modify_of_ne {handle other : ℕ} (h : other ≠ handle) (f : A → A) :
    (table.modify handle f).value other = table.value other :=
  Function.update_of_ne h _ _

/-- A handle given back has no value. -/
@[simp] theorem release_self (handle : ℕ) : (table.release handle).value handle = none :=
  Function.update_self _ _ _

/-- Giving a handle back keeps the values of the others. -/
theorem release_of_ne {handle other : ℕ} (h : other ≠ handle) :
    (table.release handle).value other = table.value other :=
  Function.update_of_ne h _ _

/-- The handles in use. -/
structure Holds (table : Handles A) (handles : List ℕ) : Prop where
  nodup : handles.Nodup
  isSome_iff : ∀ handle, (table.value handle).isSome ↔ handle ∈ handles

/-- Nothing is in use in an empty table. -/
theorem holds_empty : (empty : Handles A).Holds [] := ⟨List.nodup_nil, fun _ => by simp [empty]⟩

namespace Holds

/-- The order in which handles are listed does not matter. -/
theorem perm {others : List ℕ} (h : table.Holds handles) (hperm : handles.Perm others) :
    table.Holds others :=
  ⟨hperm.nodup_iff.mp h.nodup, fun handle => (h.isSome_iff handle).trans hperm.mem_iff⟩

/-- A handle in use has a value. -/
theorem exists_value (h : table.Holds handles) {handle : ℕ} (hmem : handle ∈ handles) :
    ∃ value, table.value handle = some value :=
  Option.isSome_iff_exists.mp ((h.isSome_iff handle).mpr hmem)

/-- A handle that is not in use has none. -/
theorem value_eq_none (h : table.Holds handles) {handle : ℕ} (hmem : handle ∉ handles) :
    table.value handle = none := by
  rw [← Option.not_isSome_iff_eq_none, h.isSome_iff]
  exact hmem

/-- Handles in use were given out. -/
theorem lt_next (h : table.Holds handles) {handle : ℕ} (hmem : handle ∈ handles) :
    handle < table.next := by
  by_contra hnot
  obtain ⟨value, hvalue⟩ := h.exists_value hmem
  rw [table.unused handle (Nat.le_of_not_lt hnot)] at hvalue
  contradiction

/-- A new handle is one more in use. -/
theorem acquire (h : table.Holds handles) (value : A) :
    (table.acquire value).Holds (table.next :: handles) := by
  refine ⟨List.nodup_cons.mpr ⟨fun hmem => Nat.lt_irrefl _ (h.lt_next hmem), h.nodup⟩,
    fun handle => ?_⟩
  by_cases heq : handle = table.next
  · simp [heq]
  · simp [acquire_of_ne value heq, heq, h.isSome_iff]

/-- Changing values keeps the handles. -/
theorem modify (h : table.Holds handles) (handle : ℕ) (f : A → A) :
    (table.modify handle f).Holds handles := by
  refine ⟨h.nodup, fun other => ?_⟩
  by_cases heq : other = handle
  · simp [Handles.modify, heq, h.isSome_iff]
  · rw [modify_of_ne heq, h.isSome_iff]

/-- A handle given back is no longer in use. -/
theorem release {handle : ℕ} (h : table.Holds (handle :: handles)) :
    (table.release handle).Holds handles := by
  obtain ⟨hnot, hnodup⟩ := List.nodup_cons.mp h.nodup
  refine ⟨hnodup, fun other => ?_⟩
  by_cases heq : other = handle
  · simp [heq, hnot]
  · simp [release_of_ne heq, heq, h.isSome_iff]

end Holds

end Handles

end VirtualFirmware.Library
