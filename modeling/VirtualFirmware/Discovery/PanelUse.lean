import VirtualFirmware.Discovery.Ownership

/-!
# Functions that use one panel

On a panel that is there, binding, setting a destination and the multicast functions return in
every case, and use no other panel. A function that does not complete on such a panel would be a
fault of its own; the faults come from the functions that create and free.
-/

namespace VirtualFirmware.Discovery

open Library

section Steps

variable {w : World} {p : ℕ} {panel : Panel} (h : w.panels.value p = some panel)

include h

/-- Reading a panel that is there returns it and changes nothing. -/
theorem deref_eq : deref (some p) w = .pure (.ok panel, w) := by
  simp only [deref, h]

omit h in
/-- Reading a panel stops, or the panel is there. -/
theorem deref_cases (p : PanelPtr) (w : World) :
    (∃ fault, deref p w = .pure (.error (.fault fault), w)) ∨
      ∃ id panel, p = some id ∧ w.panels.value id = some panel := by
  cases p with
  | none => exact .inl ⟨.nullPanel, rfl⟩
  | some id =>
    cases hpanel : w.panels.value id with
    | none => exact .inl ⟨.freedPanel, by simp only [deref, hpanel, fail]⟩
    | some panel => exact .inr ⟨id, panel, rfl, hpanel⟩

/-- Storing into a panel that is there changes this panel only. -/
theorem assign_eq (f : Panel → Panel) :
    assign (some p) f w = .pure (.ok (), { w with panels := w.panels.modify p f }) := by
  simp only [assign, h]

/-- Freeing a panel that is there gives back its memory and no socket. -/
theorem free_eq : free (some p) w = .pure (.ok (), { w with panels := w.panels.release p }) := by
  simp only [free, h]

/-- A store that keeps the socket uses the panel. -/
theorem touched_modify {f : Panel → Panel}
    (hf : (f panel).spSocket = panel.spSocket) :
    Touched p w { w with panels := w.panels.modify p f } where
  others id hne := Handles.modify_of_ne hne f
  same := by
    rw [Handles.modify_self h, h]
    exact congrArg some hf
  sockets := rfl
  calls := .refl rfl

end Steps

/-- On a panel that is there the program returns, and uses only this panel. -/
def Uses {A : Type} (p : ℕ) (x : DiscoveryM A) : Prop :=
  ∀ w, (w.panels.value p).isSome → Finishes (fun _ w' => Touched p w w') x w

namespace Uses

variable {A B : Type} {p : ℕ}

/-- Returning a value uses nothing. -/
theorem pure (value : A) : Uses p (Pure.pure value : DiscoveryM A) := fun w _ => .pure (.refl p w)

/-- Both parts of a sequence use the panel only. -/
theorem bind {x : DiscoveryM A} {next : A → DiscoveryM B} (hx : Uses p x)
    (hnext : ∀ value, Uses p (next value)) :
    Uses p (x >>= next) := fun w hw =>
  (hx w hw).bind fun value w' h =>
    (hnext value w' (h.isSome p ▸ hw)).mono fun _ _ h' => h.trans h'

/-- After a program that uses a panel that is owned, the outcomes are those of what follows. -/
theorem always_bind {condition : Except Halt B × World → Prop} {x : DiscoveryM A}
    {next : A → DiscoveryM B} {w : World} {o : Owned} {owned : List Owned} {loose : List ℕ}
    (hx : Uses o.1 x) (h : Owns w owned loose) (hmem : o ∈ owned)
    (hnext : ∀ value w', Touched o.1 w w' → Interaction.Always condition (next value w')) :
    Interaction.Always condition ((x >>= next) w) := by
  obtain ⟨panel, hpanel, -⟩ := h.exists_panel hmem
  exact (hx w (Option.isSome_iff_exists.mpr ⟨panel, hpanel⟩)).always_bind hnext

/-- Both sides of a case distinction use the panel only. -/
theorem ite {check : Prop} [Decidable check] {first second : DiscoveryM A} (hfirst : Uses p first)
    (hsecond : Uses p second) : Uses p (if check then first else second) := fun w hw =>
  always_ite (fun _ => hfirst w hw) fun _ => hsecond w hw

/-- A call that decides nothing uses no other panel. -/
theorem sys {op : SysCall} (h : op.Neutral) : Uses p (sys op) := fun w _ reply =>
  ⟨reply, rfl, .called p w h reply⟩

/-- Reading the panel uses no other panel. -/
theorem deref : Uses p (deref (some p)) := by
  intro w hw
  obtain ⟨panel, h⟩ := Option.isSome_iff_exists.mp hw
  rw [Finishes, deref_eq h]
  exact ⟨panel, rfl, .refl p w⟩

/-- A store that keeps the panel's socket uses no other panel. -/
theorem assign {f : Panel → Panel} (hf : ∀ panel, (f panel).spSocket = panel.spSocket) :
    Uses p (assign (some p) f) := by
  intro w hw
  obtain ⟨panel, h⟩ := Option.isSome_iff_exists.mp hw
  rw [Finishes, assign_eq h]
  exact ⟨(), rfl, touched_modify h (hf panel)⟩

/-- Reading inside an array uses no panel. -/
theorem entry {array : List A} {i : ℕ} (h : i < array.length) : Uses p (entry array i) := by
  intro w _
  rw [Finishes, Discovery.entry, List.getElem?_eq_getElem h]
  exact ⟨array[i], rfl, .refl p w⟩

/-- `BindPanel` uses its panel. -/
theorem bindPanel (addr : Option String) (svc : String) (reuse : Int) :
    Uses p (bindPanel (some p) addr svc reuse) := by
  refine deref.bind fun _ =>
    .ite (deref.bind fun panel => (sys (by trivial)).bind fun ai => ?_) (.pure _)
  cases ai with
  | none => exact .pure _
  | some ai =>
    refine (assign fun _ => by rfl).bind fun _ => deref.bind fun _ =>
      (sys (by trivial)).bind fun rc => ?_
    refine .ite (.pure _) ((assign fun _ => by rfl).bind fun _ => ?_)
    exact deref.bind fun _ => deref.bind fun _ => sys (by trivial)

/-- `SetDestination` uses its panel. -/
theorem setDestination (addr : Option String) (svc : String) :
    Uses p (setDestination (some p) addr svc) := by
  refine deref.bind fun _ =>
    .ite (deref.bind fun panel => (sys (by trivial)).bind fun ai => ?_) (.pure _)
  cases ai with
  | none => exact .pure _
  | some ai => exact (assign fun _ => by rfl).bind fun _ => .pure _

/-- `JoinMulticastGroup` uses its panel. -/
theorem joinMulticastGroup (ifaddr : Option String) :
    Uses p (joinMulticastGroup (some p) ifaddr) := by
  refine deref.bind fun panel =>
    .ite ((sys (by trivial)).bind fun rc => .ite (.pure _) ?_) (.pure _)
  exact (assign fun _ => by rfl).bind fun _ => .pure _

/-- `SetMulticastSendInterface` uses its panel. -/
theorem setMulticastSendInterface (addr : SockAddr) :
    Uses p (setMulticastSendInterface (some p) addr) :=
  .ite (deref.bind fun _ => (sys (by trivial)).bind fun _ => .ite (.pure _) (.pure _)) (.pure _)

/-- `SetMulticastLoopback` uses its panel. -/
theorem setMulticastLoopback (loopval : Int) : Uses p (setMulticastLoopback (some p) loopval) :=
  deref.bind fun _ => .ite ((sys (by trivial)).bind fun _ => .ite (.pure _) (.pure _)) (.pure _)

end Uses

end VirtualFirmware.Discovery
