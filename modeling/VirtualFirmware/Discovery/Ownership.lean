import VirtualFirmware.Discovery.Panel

/-!
# What a call owns

At every point the panels and sockets a call has created are listed: panels with their sockets, and
sockets that belong to no panel. Functions that use one panel leave the list as it is; creating,
freeing and dissociating a panel change it by one entry.
-/

namespace VirtualFirmware.Discovery

open Library

/-- A panel's handle and its socket. -/
abbrev Owned := ℕ × ℕ

/-- These panels with their sockets, and these sockets besides, are all that there is. -/
structure Owns (w : World) (owned : List Owned) (loose : List ℕ) : Prop where
  panels : w.panels.Holds (owned.map Prod.fst)
  sockets : w.sockets.Holds (owned.map Prod.snd ++ loose)
  spSocket : ∀ o ∈ owned, (w.panels.value o.1).map Panel.spSocket = some (some o.2)

/-- A new call owns nothing. -/
theorem owns_initial : Owns .initial [] [] :=
  ⟨Handles.holds_empty, Handles.holds_empty, fun _ h => absurd h List.not_mem_nil⟩

/-- Calls whose results do not decide what is owned. -/
def SysCall.Neutral : SysCall → Prop
  | .getaddrinfo _ _ _ _ _ => True
  | .setsockopt _ (.dropMembership _ _) => False
  | .setsockopt _ _ => True
  | .bind _ _ => True
  | .listen _ _ => True
  | .sendto _ _ _ => True
  | _ => False

/-- Only such calls are made. -/
def Makes (allowed : SysCall → Prop) (w w' : World) : Prop :=
  ∃ calls, w'.calls = w.calls ++ calls ∧ ∀ call ∈ calls, allowed call.1

/-- A step without calls makes only allowed ones. -/
theorem Makes.refl {allowed : SysCall → Prop} {w w' : World} (h : w'.calls = w.calls) :
    Makes allowed w w' :=
  ⟨[], by rw [h, List.append_nil], fun _ hmem => absurd hmem List.not_mem_nil⟩

/-- Two steps that make only allowed calls are one such step. -/
theorem Makes.trans {allowed : SysCall → Prop} {w w' w'' : World} (h : Makes allowed w w')
    (h' : Makes allowed w' w'') : Makes allowed w w'' := by
  obtain ⟨calls, hcalls, hallowed⟩ := h
  obtain ⟨calls', hcalls', hallowed'⟩ := h'
  refine ⟨calls ++ calls', by rw [hcalls', hcalls, List.append_assoc], fun call hmem => ?_⟩
  exact (List.mem_append.mp hmem).elim (hallowed call) (hallowed' call)

/-- An allowed call is a step that makes only allowed ones. -/
theorem Makes.called {allowed : SysCall → Prop} (w : World) {op : SysCall} (h : allowed op)
    (reply : SysReply op) :
    Makes allowed w (w.called op reply) := by
  refine ⟨[⟨op, reply⟩], rfl, fun call hmem => ?_⟩
  rw [List.mem_singleton.mp hmem]
  exact h

/-- A step that makes calls of some kinds makes calls of more kinds as well. -/
theorem Makes.mono {strong weak : SysCall → Prop} {w w' : World} (h : Makes strong w w')
    (himp : ∀ op, strong op → weak op) : Makes weak w w' := by
  obtain ⟨calls, hcalls, hstrong⟩ := h
  exact ⟨calls, hcalls, fun call hmem => himp _ (hstrong call hmem)⟩

/-- Only one panel was used, and its socket is the same. -/
structure Touched (p : ℕ) (w w' : World) : Prop where
  others : ∀ id, id ≠ p → w'.panels.value id = w.panels.value id
  same : (w'.panels.value p).map Panel.spSocket = (w.panels.value p).map Panel.spSocket
  sockets : w'.sockets = w.sockets
  calls : Makes SysCall.Neutral w w'

namespace Touched

variable {p : ℕ} {w w' w'' : World}

/-- A world is one in which the panel was used, by nothing. -/
theorem refl (p : ℕ) (w : World) : Touched p w w := ⟨fun _ _ => rfl, rfl, rfl, .refl rfl⟩

/-- Two uses of a panel are one. -/
theorem trans (h : Touched p w w') (h' : Touched p w' w'') : Touched p w w'' where
  others id hne := (h'.others id hne).trans (h.others id hne)
  same := h'.same.trans h.same
  sockets := h'.sockets.trans h.sockets
  calls := h.calls.trans h'.calls

/-- A call that decides nothing uses the panel at most. -/
theorem called (p : ℕ) (w : World) {op : SysCall} (h : op.Neutral) (reply : SysReply op) :
    Touched p w (w.called op reply) := ⟨fun _ _ => rfl, rfl, rfl, .called w h reply⟩

/-- The sockets of all panels are the same. -/
theorem spSocket (h : Touched p w w') (id : ℕ) :
    (w'.panels.value id).map Panel.spSocket = (w.panels.value id).map Panel.spSocket := by
  by_cases hid : id = p
  · rw [hid]
    exact h.same
  · rw [h.others id hid]

/-- The same panels are there. -/
theorem isSome (h : Touched p w w') (id : ℕ) :
    (w'.panels.value id).isSome = (w.panels.value id).isSome := by
  rw [← Option.isSome_map, h.spSocket id, Option.isSome_map]

/-- Using a panel does not change what is owned. -/
theorem owns (h : Touched p w w') {owned : List Owned} {loose : List ℕ}
    (howns : Owns w owned loose) :
    Owns w' owned loose where
  panels := ⟨howns.panels.nodup, fun id => by rw [h.isSome id, howns.panels.isSome_iff id]⟩
  sockets := h.sockets ▸ howns.sockets
  spSocket o hmem := (h.spSocket o.1).trans (howns.spSocket o hmem)

end Touched

namespace Owns

variable {w : World} {owned : List Owned} {loose : List ℕ}

/-- An owned panel can be read. -/
theorem exists_panel (h : Owns w owned loose) {o : Owned} (hmem : o ∈ owned) :
    ∃ panel, w.panels.value o.1 = some panel ∧ panel.spSocket = some o.2 := by
  obtain ⟨panel, hpanel⟩ := h.panels.exists_value (List.mem_map_of_mem hmem)
  refine ⟨panel, hpanel, ?_⟩
  have hsocket := h.spSocket o hmem
  rw [hpanel] at hsocket
  exact Option.some_inj.mp hsocket

/-- A call by itself does not change what is owned. -/
theorem called (h : Owns w owned loose) (op : SysCall) (reply : SysReply op) :
    Owns (w.called op reply) owned loose := ⟨h.panels, h.sockets, h.spSocket⟩

/-- The order in which the owned panels are listed does not matter. -/
theorem perm {owned' : List Owned} (h : Owns w owned loose) (hperm : owned.Perm owned') :
    Owns w owned' loose :=
  ⟨h.panels.perm (hperm.map _), h.sockets.perm ((hperm.map _).append_right _),
    fun o hmem => h.spSocket o (hperm.mem_iff.mpr hmem)⟩

end Owns

end VirtualFirmware.Discovery
