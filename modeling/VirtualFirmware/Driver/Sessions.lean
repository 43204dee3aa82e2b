import VirtualFirmware.Driver.LockStep

/-!
# Driver sessions one after another

A session programs a newly allocated ring, sends commands and shuts the queue down. The head
register survives from one session to the next, and the driver resets it only after it has
written the tail, so the device first processes a slot of the new ring at the old head. That
slot belongs to the ring exactly when the old head is below the new size.
-/

namespace VirtualFirmware.Driver

open Library Adminq Device

/-- A session of the driver: the ring it allocates and the calls it makes. -/
structure Session where
  info : AdminqInfo
  dma : UInt64
  calls : List AsqCall
  entries : info.numAsqEntries ≠ 0

/-- The driver's state once the ring is allocated. -/
def Session.allocated (session : Session) : AdminqInfo :=
  e1000AllocAdminqRings session.dma session.info

/-- The size of the session's ring. -/
def Session.size (session : Session) : ℕ := session.info.numAsqEntries.toNat

/-- The number of commands of the session that reach the ring. -/
def Session.commands (session : Session) : ℕ := reaching session.info session.calls

/-- The address is that of a slot of the ring. -/
def slotOf (ring : RingRegs) (addr : UInt64) : Prop :=
  ∃ i < ring.ringLen.toNat, addr = recordAt AqDesc.size ring.base i

/-- A descriptor that the device reads or writes back lies in a slot of the ring that is
programmed at that moment. -/
def InRing : AtqEvent → Prop
  | .fetched ring addr _ => slotOf ring addr
  | .writtenBack ring addr _ => slotOf ring addr
  | .posted _ _ => True
  | .answered _ => True

/-- The head that each session finds is below the size of its ring. -/
def SessionsFit : ℕ → List Session → Prop
  | _, [] => True
  | head, session :: rest =>
    head < session.size ∧ SessionsFit (session.commands % session.size) rest

instance decidableSessionsFit : (head : ℕ) → (sessions : List Session) →
    Decidable (SessionsFit head sessions)
  | _, [] => .isTrue trivial
  | head, session :: rest =>
    have := decidableSessionsFit (session.commands % session.size) rest
    inferInstanceAs (Decidable (head < session.size ∧ SessionsFit _ rest))

section Sessions

variable (startXmit : Machine → Machine)

/-- What the driver does in a session. -/
def Session.program (session : Session) : DriverM Unit := do
  e1000ConfigAdminqRegs startXmit
  sendCommands startXmit session.calls
  let _ ← e1000ShutdownAdminq startXmit

/-- Sessions one after another, without a reset in between. -/
def runSessions : List Session → DeviceM Unit
  | [] => return
  | session :: rest => do
    let _ ← (session.program startXmit).run session.allocated
    runSessions rest

/-- Whatever the outcome of the exchanges with the firmware, the device touches only slots of
the ring that is programmed at that moment. -/
def DmaInRing (sessions : List Session) (m : Machine) : Prop :=
  Interaction.Always (fun result => ∀ event ∈ result.2.trace.drop m.trace.length, InRing event)
    (runSessions startXmit sessions m)

end Sessions

/-- The slot of an index belongs to the ring if the index does. -/
theorem slotOf_slot_iff (ring : RingRegs) (index : UInt32) :
    slotOf ring (ring.slot index) ↔ index.toNat < ring.ringLen.toNat := by
  rw [RingRegs.slot_eq]
  constructor
  · rintro ⟨i, hlt, heq⟩
    have hbytes := congrArg UInt64.toNat ((UInt64.add_right_inj ring.base).mp heq)
    have hindex := index.toNat_lt
    have hlen := ring.ringLen.toNat_lt
    simp only [UInt64.toNat_ofNat', AqDesc.size] at hbytes
    omega
  · exact fun hlt => ⟨index.toNat, hlt, rfl⟩

/-- A tail write touches a slot of the ring exactly when the head is one of its indices. -/
theorem tailWritten_inRing_iff {m m' : Machine} {val : UInt32} (h : TailWritten m val m') :
    ∃ events, m'.trace = m.trace ++ events ∧ ((∀ event ∈ events, InRing event) ↔
      (m.dev.macReg pfAtqh).toNat < m.dev.ring.ringLen.toNat) := by
  obtain ⟨desc, answers, htrace, hanswers⟩ := h.trace
  refine ⟨_, htrace, ?_⟩
  rw [← slotOf_slot_iff]
  rcases hanswers with ⟨rfl, -⟩ | rfl <;> simp [InRing, Machine.headSlot]

/-- Commands that are served in step stay in the ring. -/
theorem Served.inRing {ring : RingRegs} (hpos : 0 < ring.ringLen.toNat) {bufs : ℕ → UInt64}
    {first : ℕ} {calls : List AsqCall} {events : List AtqEvent}
    (h : Served ring bufs first calls events) : ∀ event ∈ events, InRing event := by
  induction h with
  | none => simp
  | @next _ _ _ index slot _ _ _ _ hindex hslot _ hanswers ih =>
    have hinside : slotOf ring slot := ⟨index, hindex ▸ Nat.mod_lt _ hpos, hslot⟩
    rcases hanswers with ⟨rfl, -⟩ | rfl <;>
      simpa [List.forall_mem_append, or_imp, forall_and, InRing, hinside] using ih

section Run

variable (startXmit : Machine → Machine)

/-- Programming the ring touches a slot of it exactly when the old head is below its size. -/
theorem e1000ConfigAdminqRegs_inRing_iff (aq : AdminqInfo) (m : Machine) :
    Interaction.Always (fun result => ∃ events, result.2.trace = m.trace ++ events ∧
        ((∀ event ∈ events, InRing event) ↔
          (m.dev.macReg pfAtqh).toNat < aq.numAsqEntries.toNat))
      (e1000ConfigAdminqRegs startXmit aq m) := by
  rw [e1000ConfigAdminqRegs_eq, Interaction.always_bind]
  refine (e1000SetAtqTail_written _ _).mono fun written hwritten => ?_
  have hevents := tailWritten_inRing_iff hwritten
  rwa [programmed_head, programmed_ring, AdminqInfo.regs_ringLen] at hevents

/-- A session touches only its ring exactly when the head it finds is below the ring's size, and
leaves the number of its commands modulo the size behind as the head. -/
theorem Session.program_inRing_iff (session : Session) (m : Machine) :
    Interaction.Always (fun result =>
        (result.2.dev.macReg pfAtqh).toNat = session.commands % session.size ∧
        ∃ events, result.2.trace = m.trace ++ events ∧ ((∀ event ∈ events, InRing event) ↔
          (m.dev.macReg pfAtqh).toNat < session.size))
      (session.program startXmit session.allocated m) := by
  change Interaction.Always _ (e1000ConfigAdminqRegs startXmit session.allocated m >>=
    fun configured =>
    sendCommands startXmit session.calls configured.1.2 configured.2 >>= fun sent =>
      e1000ShutdownAdminq startXmit sent.1.2 sent.2 >>= fun down => .pure (((), down.1.2), down.2))
  rw [Interaction.always_bind]
  have hconfig := (e1000ConfigAdminqRegs_inStep startXmit m session.entries session.dma).and
    (e1000ConfigAdminqRegs_inRing_iff startXmit session.allocated m)
  refine hconfig.mono fun configured hconfigured => ?_
  obtain ⟨⟨haq, hinStep⟩, events, htrace, hinRing⟩ := hconfigured
  rw [haq, Interaction.always_bind]
  have hsent := hinStep.sendCommands_fresh startXmit session.calls
  refine hsent.mono fun sent hresult => ?_
  obtain ⟨hsize, hend, events', hserved, htrace'⟩ := hresult
  have hpos : 0 < session.allocated.regs.ringLen.toNat := by
    rw [AdminqInfo.regs_ringLen]
    exact hinStep.entries_pos
  refine ⟨?_, events ++ events', ?_, ?_⟩
  · change ((sent.2.dev.setMac pfAtqlen 0).macReg pfAtqh).toNat = _
    rw [E1000State.setMac_of_ne _ _ (by decide), hend.head, hsize]
    rfl
  · rw [← List.append_assoc, ← htrace]
    exact htrace'
  · rw [List.forall_mem_append, hinRing]
    exact and_iff_left (Served.inRing hpos hserved)

/-- Sessions touch only their rings exactly when each finds a head below the size of its ring. -/
theorem runSessions_inRing_iff (sessions : List Session) (m : Machine) :
    Interaction.Always (fun result => ∃ events, result.2.trace = m.trace ++ events ∧
        ((∀ event ∈ events, InRing event) ↔ SessionsFit (m.dev.macReg pfAtqh).toNat sessions))
      (runSessions startXmit sessions m) := by
  induction sessions generalizing m with
  | nil => exact ⟨[], (List.append_nil _).symm, by simp [SessionsFit]⟩
  | cons session rest ih =>
    change Interaction.Always _ (session.program startXmit session.allocated m >>= fun first =>
      runSessions startXmit rest first.2)
    rw [Interaction.always_bind]
    refine (session.program_inRing_iff startXmit m).mono fun first hfirst => ?_
    obtain ⟨hhead, events, htrace, hinRing⟩ := hfirst
    refine (ih first.2).mono fun result hresult => ?_
    obtain ⟨events', htrace', hinRing'⟩ := hresult
    refine ⟨events ++ events', ?_, ?_⟩
    · rw [htrace', htrace, List.append_assoc]
    · rw [List.forall_mem_append, hinRing, hinRing', hhead]
      rfl

variable {startXmit}

/-- Sessions that keep to their rings fit. -/
theorem DmaInRing.fit {sessions : List Session} {m : Machine} (h : DmaInRing startXmit sessions m) :
    SessionsFit (m.dev.macReg pfAtqh).toNat sessions := by
  obtain ⟨events, htrace, hinRing⟩ := (runSessions_inRing_iff startXmit sessions m).resolve refused
  have hevents := h.resolve refused
  rw [htrace, List.drop_left] at hevents
  exact hinRing.mp hevents

/-- Sessions that fit keep to their rings. -/
theorem dmaInRing_of_fit {sessions : List Session} {m : Machine}
    (h : SessionsFit (m.dev.macReg pfAtqh).toNat sessions) : DmaInRing startXmit sessions m := by
  refine (runSessions_inRing_iff startXmit sessions m).mono fun result hresult => ?_
  obtain ⟨events, htrace, hinRing⟩ := hresult
  rw [htrace, List.drop_left]
  exact hinRing.mpr h

end Run

/-- A session on a ring of the given size that asks for the version a number of times. -/
def versionSession (entries : UInt16) (h : entries ≠ 0) (times : ℕ) : Session where
  info := { threeSlots with numAsqEntries := entries }
  dma := 0x1000
  calls := List.replicate times getVersionCall
  entries := h

end VirtualFirmware.Driver
