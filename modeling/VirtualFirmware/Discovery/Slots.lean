import VirtualFirmware.Discovery.Announce
import VirtualFirmware.Discovery.PanelLife

/-!
# The array of panels of `announce`

An entry is empty, half built or built. The loop at the label `err` frees what the entries point to.
On entries that point to panels that are there, each to its own, this releases all of them. On an
entry whose panel was freed before it uses the panel again, and beyond the last entry it leaves the
array.
-/

namespace VirtualFirmware.Discovery

open Library

/-- The panels that an entry of the array points to. -/
structure Slot where
  hs : Option Owned
  cs : Option Owned

namespace Slot

/-- An entry that was not built. -/
def empty : Slot := ⟨none, none⟩

/-- An entry that was built. -/
def full (pair : Owned × Owned) : Slot := ⟨some pair.1, some pair.2⟩

/-- The entry itself. -/
def pointers (slot : Slot) : IfPanel := ⟨slot.hs.map Prod.fst, slot.cs.map Prod.fst⟩

/-- The panels of an entry. -/
def owned (slot : Slot) : List Owned := slot.hs.toList ++ slot.cs.toList

end Slot

/-- The panels of the interfaces that were built. -/
def panelsOf (built : List (Owned × Owned)) : List Owned :=
  built.flatMap fun pair => [pair.1, pair.2]

/-- The entries when some interfaces were built, and perhaps one more in part. -/
def slotsOf (built : List (Owned × Owned)) (last : List Slot) : List Slot :=
  built.map Slot.full ++ last ++ List.replicate (maxIfLength - built.length - last.length) .empty

section Entries

variable {built : List (Owned × Owned)}

/-- The array keeps its length. -/
theorem slotsOf_length {last : List Slot} (h : built.length + last.length ≤ maxIfLength) :
    (slotsOf built last).length = maxIfLength := by
  simp only [slotsOf, List.length_append, List.length_map, List.length_replicate]
  omega

/-- The entries point to the panels that were built and to those of the last entry. -/
theorem slotsOf_owned (built : List (Owned × Owned)) (last : List Slot) :
    (slotsOf built last).flatMap Slot.owned = panelsOf built ++ last.flatMap Slot.owned := by
  have hempty (count : ℕ) : (List.replicate count Slot.empty).flatMap Slot.owned = [] := by
    induction count with
    | zero => rfl
    | succ count ih => rw [List.replicate_succ, List.flatMap_cons, ih]; rfl
  rw [slotsOf, List.flatMap_append, List.flatMap_append, hempty, List.append_nil, List.flatMap_map]
  rfl

/-- The entry of an interface that was built points to its pair of panels. -/
theorem slotsOf_getElem {i : ℕ} (hi : i < built.length) (last : List Slot) :
    ((slotsOf built last).map Slot.pointers)[i]? = some (Slot.full built[i]).pointers := by
  rw [slotsOf, List.append_assoc, List.getElem?_map,
    List.getElem?_append_left (by rwa [List.length_map]), List.getElem?_map,
    List.getElem?_eq_getElem hi]
  rfl

/-- The entry of the next interface has two null pointers. -/
theorem slotsOf_getElem_next (h : built.length < maxIfLength) :
    ((slotsOf built []).map Slot.pointers)[built.length]? = some ⟨none, none⟩ := by
  rw [slotsOf, List.append_nil, List.getElem?_map,
    List.getElem?_append_right (by rw [List.length_map]), List.length_map, Nat.sub_self,
    List.getElem?_replicate, if_pos (by simp only [List.length_nil]; omega)]
  rfl

/-- Storing into the entry of the next interface makes it the last entry. -/
theorem slotsOf_set (h : built.length < maxIfLength) (slot : Slot) :
    ((slotsOf built []).map Slot.pointers).set built.length slot.pointers =
      (slotsOf built [slot]).map Slot.pointers := by
  obtain ⟨count, hcount⟩ : ∃ count, maxIfLength - built.length = count + 1 :=
    ⟨_, (Nat.sub_add_cancel (by omega)).symm⟩
  rw [← List.map_set, slotsOf, slotsOf, List.append_nil,
    List.set_append_right _ _ (by rw [List.length_map]), List.length_map, Nat.sub_self,
    List.length_nil, Nat.sub_zero, hcount, List.replicate_succ, List.set_cons_zero,
    List.length_singleton, Nat.add_sub_cancel, List.append_assoc, List.singleton_append]

/-- A last entry with both panels is one more interface that was built. -/
theorem slotsOf_full (built : List (Owned × Owned)) (pair : Owned × Owned) :
    slotsOf built [Slot.full pair] = slotsOf (built ++ [pair]) [] := by
  simp [slotsOf, Nat.sub_sub]

/-- One more interface has two more panels, at the end. -/
theorem panelsOf_append (built : List (Owned × Owned)) (pair : Owned × Owned) :
    panelsOf (built ++ [pair]) = panelsOf built ++ [pair.1, pair.2] := by
  simp [panelsOf]

/-- The panels that joined the group are among them. -/
theorem groups_subset (built : List (Owned × Owned)) : built.map Prod.fst ⊆ panelsOf built := by
  intro o hmem
  obtain ⟨pair, hpair, rfl⟩ := List.mem_map.mp hmem
  exact List.mem_flatMap.mpr ⟨pair, hpair, List.mem_cons_self⟩

end Entries

/-- Reading inside an array returns the entry and changes nothing. -/
theorem entry_eq {A : Type} {array : List A} {i : ℕ} {value : A} (h : array[i]? = some value)
    (w : World) :
    entry array i w = .pure (.ok value, w) := by
  simp only [entry, h]

/-- `FreePanel` of a panel that was freed stops with a fault. -/
theorem freePanel_freed {w : World} {id : ℕ} (h : w.panels.value id = none) :
    freePanel (some id) w = .pure (.error (.fault .freedPanel), w) := by
  have hderef : deref (some id) w = .pure (.error (.fault .freedPanel), w) := by
    simp only [deref, h, fail]
  exact chain_of_stop hderef _

/-- What `FreePanel` can do: use a panel that was freed, or free one more. -/
theorem freePanel_cases (p : PanelPtr) (w : World) :
    freePanel p w = .pure (.error (.fault .freedPanel), w) ∨
      ∃ w', freePanel p w = .pure (.ok (), w') ∧ w'.calls = w.calls ∧
        ∀ id, w.panels.value id = none → w'.panels.value id = none := by
  cases p with
  | none => exact .inr ⟨w, rfl, rfl, fun _ => id⟩
  | some id =>
    cases hpanel : w.panels.value id with
    | none => exact .inl (freePanel_freed hpanel)
    | some panel =>
      refine .inr ⟨_, freePanel_eq hpanel, ?_, fun other hother => ?_⟩
      · cases hsocket : panel.spSocket <;> rfl
      · by_cases hid : other = id
        · rw [hid]
          exact Handles.release_self _
        · exact (Handles.release_of_ne hid).trans hother

section ErrLoop

variable {slots : List Slot} {w : World} {loose : List ℕ}

/-- The loop releases the panels from an entry on. -/
theorem errLoop_frees {left : ℕ} (hleft : left ≤ slots.length)
    (h : Owns w ((slots.drop (slots.length - left)).flatMap Slot.owned) loose) :
    ∃ w', errLoop (slots.map Slot.pointers) slots.length left w = .pure (.ok (), w') ∧
      Owns w' [] loose ∧
      w'.calls = w.calls := by
  induction left generalizing w with
  | zero =>
    rw [Nat.sub_zero, List.drop_length] at h
    exact ⟨w, rfl, h, rfl⟩
  | succ left ih =>
    have hi : slots.length - (left + 1) < slots.length := by omega
    have hnext : slots.length - (left + 1) + 1 = slots.length - left := by omega
    have hentry : (slots.map Slot.pointers)[slots.length - (left + 1)]? =
        some (slots[slots.length - (left + 1)]).pointers := by
      rw [List.getElem?_map, List.getElem?_eq_getElem hi]
      rfl
    rw [List.drop_eq_getElem_cons hi, hnext, List.flatMap_cons, Slot.owned, List.append_assoc] at h
    obtain ⟨w₁, hfree₁, howns₁, hcalls₁, -⟩ := freePanel_optional h
    obtain ⟨w₂, hfree₂, howns₂, hcalls₂, -⟩ := freePanel_optional howns₁
    obtain ⟨w₃, hloop, howns₃, hcalls₃⟩ := ih (by omega) howns₂
    refine ⟨w₃, ?_, howns₃, by rw [hcalls₃, hcalls₂, hcalls₁]⟩
    rw [errLoop, chain_of_eq (entry_eq hentry w), Slot.pointers, chain_of_eq hfree₁,
      chain_of_eq hfree₂, hloop]

/-- The loop comes to a panel that was freed, if there is one from an entry on. -/
theorem errLoop_freed {ifp : List IfPanel} {k id left : ℕ} (hleft : left ≤ ifp.length)
    (hk : ifp.length - left ≤ k) {p : IfPanel} (hp : ifp[k]? = some p) (hcs : p.cs = some id)
    (hfreed : w.panels.value id = none) :
    ∃ w', errLoop ifp ifp.length left w = .pure (.error (.fault .freedPanel), w') ∧
      w'.calls = w.calls := by
  induction left generalizing w with
  | zero =>
    have hlt : k < ifp.length := (List.getElem?_eq_some_iff.mp hp).1
    omega
  | succ left ih =>
    have hi : ifp.length - (left + 1) < ifp.length := by omega
    rw [errLoop, chain_of_eq (entry_eq (List.getElem?_eq_getElem hi) w)]
    obtain hfault | ⟨w₁, hfree₁, hcalls₁, hkeeps₁⟩ :=
      freePanel_cases ifp[ifp.length - (left + 1)].hs w
    · exact ⟨w, chain_of_stop hfault _, rfl⟩
    rw [chain_of_eq hfree₁]
    obtain hfault | ⟨w₂, hfree₂, hcalls₂, hkeeps₂⟩ :=
      freePanel_cases ifp[ifp.length - (left + 1)].cs w₁
    · exact ⟨w₁, chain_of_stop hfault _, hcalls₁⟩
    rw [chain_of_eq hfree₂]
    -- the freed panel is not the one of this entry, or `FreePanel` would have used it
    have hne : k ≠ ifp.length - (left + 1) := by
      rintro rfl
      obtain rfl : ifp[ifp.length - (left + 1)] = p :=
        Option.some_inj.mp ((List.getElem?_eq_getElem hi).symm.trans hp)
      rw [hcs, freePanel_freed (hkeeps₁ id hfreed)] at hfree₂
      cases hfree₂
    obtain ⟨w', hloop, hcalls'⟩ := ih (by omega) (by omega) (hkeeps₂ id (hkeeps₁ id hfreed))
    exact ⟨w', hloop, by rw [hcalls', hcalls₂, hcalls₁]⟩

/-- With more interfaces than entries the loop leaves the array. -/
theorem errLoop_overruns {length total left : ℕ} (hlength : length < total) (hleft : left ≤ total)
    (hi : total - left ≤ length) (w : World) :
    errLoop (List.replicate length ⟨none, none⟩) total left w =
      .pure (.error (.fault .outOfBounds), w) := by
  induction left with
  | zero => omega
  | succ left ih =>
    by_cases hlast : total - (left + 1) < length
    · have hentry : (List.replicate length (⟨none, none⟩ : IfPanel))[total - (left + 1)]? =
          some ⟨none, none⟩ := by
        rw [List.getElem?_replicate, if_pos hlast]
      rw [errLoop, chain_of_eq (entry_eq hentry w)]
      exact ih (by omega) (by omega)
    · have hentry : entry (List.replicate length (⟨none, none⟩ : IfPanel)) (total - (left + 1)) w =
          .pure (.error (.fault .outOfBounds), w) := by
        rw [entry, List.getElem?_replicate, if_neg hlast]
        rfl
      exact chain_of_stop hentry _

end ErrLoop

end VirtualFirmware.Discovery
