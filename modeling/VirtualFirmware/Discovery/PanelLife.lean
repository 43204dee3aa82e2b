import VirtualFirmware.Discovery.PanelUse

/-!
# Creating and freeing panels

`FreePanel` and `DissociatePanel` take a panel off the list of what is owned; the latter leaves its
socket. `CreatePanel` adds one, or fails with its memory given back, or, when there is no memory,
stores through `NULL`.
-/

namespace VirtualFirmware.Discovery

open Library

/-- The world without a panel and its socket. -/
def World.without (w : World) (o : Owned) : World :=
  { w with panels := w.panels.release o.1, sockets := w.sockets.release o.2 }

/-- The world without a panel whose socket stays. -/
def World.dissociated (w : World) (o : Owned) : World := { w with panels := w.panels.release o.1 }

/-- `FreePanel` closes the socket of a panel that is there and gives its memory back. -/
theorem freePanel_eq {w : World} {p : ℕ} {panel : Panel} (h : w.panels.value p = some panel) :
    freePanel (some p) w =
      .pure (.ok (), { w.closed panel.spSocket with panels := w.panels.release p }) := by
  have hclosed : (w.closed panel.spSocket).panels = w.panels := by
    cases hsocket : panel.spSocket <;> rfl
  change (deref (some p) >>= fun panel => close panel.spSocket >>= fun _ => free (some p)) w = _
  rw [chain_of_eq (deref_eq h)]
  change free (some p) (w.closed panel.spSocket) = _
  rw [free_eq (hclosed ▸ h), hclosed]

section Free

variable {w : World} {o : Owned} {owned : List Owned} {loose : List ℕ}
  (h : Owns w (o :: owned) loose)

include h

/-- `FreePanel` of an owned panel returns without the panel and its socket. -/
theorem freePanel_owned : freePanel (some o.1) w = .pure (.ok (), w.without o) := by
  obtain ⟨panel, hpanel, hsocket⟩ := h.exists_panel List.mem_cons_self
  rw [freePanel_eq hpanel, hsocket]
  rfl

/-- `DissociatePanel` of an owned panel returns without the panel and leaves its socket. -/
theorem dissociatePanel_owned : dissociatePanel (some o.1) w = .pure (.ok (), w.dissociated o) := by
  obtain ⟨panel, hpanel, -⟩ := h.exists_panel List.mem_cons_self
  exact free_eq hpanel

/-- The first panel is none of the others. -/
theorem Owns.ne_first {other : Owned} (hmem : other ∈ owned) : other.1 ≠ o.1 := by
  have hnodup := h.panels.nodup
  rw [List.map_cons, List.nodup_cons] at hnodup
  exact fun heq => hnodup.1 (heq ▸ List.mem_map_of_mem hmem)

/-- The other panels are as they were. -/
theorem Owns.release_value {other : Owned} (hmem : other ∈ owned) :
    (w.panels.release o.1).value other.1 = w.panels.value other.1 :=
  Handles.release_of_ne (h.ne_first hmem)

/-- Once a panel is freed, the other panels and the loose sockets are owned. -/
theorem Owns.without : Owns (w.without o) owned loose where
  panels := h.panels.release
  sockets := h.sockets.release
  spSocket other hmem := by
    rw [World.without, h.release_value hmem]
    exact h.spSocket other (List.mem_cons_of_mem _ hmem)

/-- Once a panel is dissociated, its socket is one of the loose ones. -/
theorem Owns.dissociated : Owns (w.dissociated o) owned (o.2 :: loose) where
  panels := h.panels.release
  sockets := h.sockets.perm List.perm_middle.symm
  spSocket other hmem := by
    rw [World.dissociated, h.release_value hmem]
    exact h.spSocket other (List.mem_cons_of_mem _ hmem)

end Free

/-- `FreePanel` of a pointer that is `NULL` or to an owned panel. -/
theorem freePanel_optional {w : World} {o : Option Owned} {owned : List Owned} {loose : List ℕ}
    (h : Owns w (o.toList ++ owned) loose) :
    ∃ w', freePanel (o.map Prod.fst) w = .pure (.ok (), w') ∧ Owns w' owned loose ∧
      w'.calls = w.calls ∧
      ∀ other ∈ owned, w'.panels.value other.1 = w.panels.value other.1 := by
  cases o with
  | none => exact ⟨w, rfl, h, rfl, fun _ _ => rfl⟩
  | some o => exact ⟨w.without o, freePanel_owned h, h.without, rfl, fun _ => h.release_value⟩

/-- What `CreatePanel` can do: store through `NULL`, fail and own what was owned before, or own one
panel more. The panels there were are left alone. -/
def Creates (w : World) (owned : List Owned) (loose : List ℕ) (op : SysCall)
    (success failure : SysReply op) (result : Except Halt PanelPtr × World) : Prop :=
  (result.1 = .error (.fault .nullPanel) ∧
      ∃ reply, result.2.calls = w.calls ++ [⟨.malloc, false⟩, ⟨op, reply⟩]) ∨
    ((∀ o ∈ owned, result.2.panels.value o.1 = w.panels.value o.1) ∧
      ((result.1 = .ok none ∧ Owns result.2 owned loose ∧
          result.2.calls = w.calls ++ [⟨.malloc, true⟩, ⟨op, failure⟩]) ∨
        ∃ o : Owned, result.1 = .ok (some o.1) ∧ Owns result.2 (owned ++ [o]) loose ∧
          result.2.calls = w.calls ++ [⟨.malloc, true⟩, ⟨op, success⟩]))

/-- A new panel does not touch those there were. -/
theorem Owns.ne_next {w : World} {owned : List Owned} {loose : List ℕ} (h : Owns w owned loose)
    {o : Owned} (hmem : o ∈ owned) : o.1 ≠ w.panels.next :=
  Nat.ne_of_lt (h.panels.lt_next (List.mem_map_of_mem hmem))

section Fill

variable {w : World} {p : ℕ} {panel : Panel} (h : w.panels.value p = some panel) (af : AddrFamily)
  (type : SockType) (proto : Protocol)

include h

/-- Without a socket the memory is given back. -/
theorem fillPanel_invalid : fillPanel (some p) af type proto none w =
    .pure (.ok none,
      { w with panels := (w.panels.modify p (Panel.withSocket none)).release p }) := by
  have hvalue : (w.panels.modify p (Panel.withSocket none)).value p =
      some (panel.withSocket none) :=
    Handles.modify_self h _
  rw [fillPanel, chain_of_eq (assign_eq h _), chain_of_eq (deref_eq hvalue),
    Panel.withSocket_spSocket, if_pos rfl, chain_of_eq (freePanel_eq hvalue)]
  rfl

/-- With a socket the panel is filled in. -/
theorem fillPanel_valid (fd : ℕ) : fillPanel (some p) af type proto (some fd) w =
    .pure (.ok (some p), { w with
      panels := (w.panels.modify p (Panel.withSocket (some fd))).modify p
        (Panel.validated af type proto) }) := by
  have hvalue : (w.panels.modify p (Panel.withSocket (some fd))).value p =
      some (panel.withSocket (some fd)) :=
    Handles.modify_self h _
  rw [fillPanel, chain_of_eq (assign_eq h _), chain_of_eq (deref_eq hvalue),
    Panel.withSocket_spSocket, if_neg (Option.some_ne_none fd), chain_of_eq (assign_eq hvalue _)]
  rfl

end Fill

section Create

variable {w : World} {af : AddrFamily} {type : SockType} {proto : Protocol}

/-- The world after a panel could not be made for want of a socket. -/
def World.unmade (w : World) (af : AddrFamily) (type : SockType) (proto : Protocol) : World where
  panels :=
    ((w.panels.acquire .zero).modify w.panels.next (Panel.withSocket none)).release w.panels.next
  sockets := w.sockets
  calls := w.calls ++ [⟨.malloc, true⟩, ⟨.socket af type proto, false⟩]

/-- The world after a panel was made. -/
def World.made (w : World) (af : AddrFamily) (type : SockType) (proto : Protocol) : World where
  panels :=
    ((w.panels.acquire .zero).modify w.panels.next (Panel.withSocket (some w.sockets.next))).modify
      w.panels.next (Panel.validated af type proto)
  sockets := w.sockets.acquire ()
  calls := w.calls ++ [⟨.malloc, true⟩, ⟨.socket af type proto, true⟩]

/-- `CreatePanel` stores through `NULL` without memory, gives the memory back without a socket, and
otherwise makes a panel. -/
theorem always_createPanel {condition : Except Halt PanelPtr × World → Prop}
    (hnull : ∀ reply sockets, condition (.error (.fault .nullPanel),
      ⟨w.panels, sockets, w.calls ++ [⟨.malloc, false⟩, ⟨.socket af type proto, reply⟩]⟩))
    (hunmade : condition (.ok none, w.unmade af type proto))
    (hmade : condition (.ok (some w.panels.next), w.made af type proto)) :
    Interaction.Always condition (createPanel af type proto w) := by
  have hnew : (w.panels.acquire .zero).value w.panels.next = some .zero := Handles.acquire_self _
  have hcalls (memory : Bool) (reply : Bool) :
      w.calls ++ [⟨.malloc, memory⟩] ++ [⟨.socket af type proto, reply⟩] =
        w.calls ++ [⟨.malloc, memory⟩, ⟨.socket af type proto, reply⟩] := List.append_assoc _ _ _
  rintro (_ | _)
  · rintro (_ | _)
    · have hstop := hnull false w.sockets
      rwa [← hcalls] at hstop
    · have hstop := hnull true (w.sockets.acquire ())
      rwa [← hcalls] at hstop
  · rintro (_ | _)
    · change Interaction.Always _ (fillPanel (some w.panels.next) af type proto none
        ⟨w.panels.acquire .zero, w.sockets,
          w.calls ++ [⟨.malloc, true⟩] ++ [⟨.socket af type proto, false⟩]⟩)
      rw [fillPanel_invalid hnew, hcalls]
      exact hunmade
    · change Interaction.Always
        _ (fillPanel (some w.panels.next) af type proto (some w.sockets.next)
        ⟨w.panels.acquire .zero, w.sockets.acquire (),
          w.calls ++ [⟨.malloc, true⟩] ++ [⟨.socket af type proto, true⟩]⟩)
      rw [fillPanel_valid hnew, hcalls]
      exact hmade

/-- A panel that was made has the new socket and is marked valid. -/
theorem World.made_value (w : World) :
    (w.made af type proto).panels.value w.panels.next =
      some (((Panel.zero.withSocket (some w.sockets.next))).validated af type proto) :=
  Handles.modify_self (Handles.modify_self (Handles.acquire_self _) _) _

variable {owned : List Owned} {loose : List ℕ} (h : Owns w owned loose)

include h

/-- Without a socket the other panels are as they were. -/
theorem Owns.unmade_value {o : Owned} (hmem : o ∈ owned) :
    (w.unmade af type proto).panels.value o.1 = w.panels.value o.1 := by
  rw [World.unmade, Handles.release_of_ne (h.ne_next hmem), Handles.modify_of_ne (h.ne_next hmem)]
  exact Handles.acquire_of_ne _ (h.ne_next hmem)

/-- Beside a new panel the others are as they were. -/
theorem Owns.made_value {o : Owned} (hmem : o ∈ owned) :
    (w.made af type proto).panels.value o.1 = w.panels.value o.1 := by
  rw [World.made, Handles.modify_of_ne (h.ne_next hmem), Handles.modify_of_ne (h.ne_next hmem)]
  exact Handles.acquire_of_ne _ (h.ne_next hmem)

/-- Without a socket nothing more is owned. -/
theorem Owns.unmade : Owns (w.unmade af type proto) owned loose where
  panels := ((h.panels.acquire _).modify _ _).release
  sockets := h.sockets
  spSocket o hmem := (congrArg _ (h.unmade_value hmem)).trans (h.spSocket o hmem)

/-- A new panel is owned with its socket. -/
theorem Owns.made :
    Owns (w.made af type proto) (owned ++ [(w.panels.next, w.sockets.next)]) loose where
  panels := by
    rw [List.map_append]
    exact (((h.panels.acquire _).modify _ _).modify _ _).perm (List.perm_append_singleton _ _).symm
  sockets := by
    rw [List.map_append, List.append_assoc]
    exact (h.sockets.acquire ()).perm List.perm_middle.symm
  spSocket o hmem := by
    obtain hmem | hmem := List.mem_append.mp hmem
    · exact (congrArg _ (h.made_value hmem)).trans (h.spSocket o hmem)
    · rw [List.mem_singleton.mp hmem, World.made_value]
      rfl

/-- `CreatePanel` ends in one of the ways that `Creates` lists. -/
theorem createPanel_creates (af : AddrFamily) (type : SockType) (proto : Protocol) :
    Interaction.Always (Creates w owned loose (.socket af type proto) true false)
      (createPanel af type proto w) := by
  refine always_createPanel (fun reply _ => .inl ⟨rfl, reply, rfl⟩) ?_ ?_
  · exact .inr ⟨fun _ => h.unmade_value, .inl ⟨rfl, h.unmade, rfl⟩⟩
  · exact .inr ⟨fun _ => h.made_value, .inr ⟨(w.panels.next, w.sockets.next), rfl, h.made, rfl⟩⟩

end Create

end VirtualFirmware.Discovery
