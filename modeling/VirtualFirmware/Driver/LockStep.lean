import VirtualFirmware.Driver.Posting

/-!
# The driver's index and the device's head

The driver counts with a 16-bit index that it compares with the ring's size for equality, the
device with a 32-bit register that it compares for order. Once the ring is programmed the two
move in step: every command is processed in the slot it was posted to, whatever the exchange
with the firmware did.
-/

namespace VirtualFirmware.Driver

open Library Adminq Device

/-- The driver and the device agree on the ring and on the number of commands served. -/
structure InStep (aq : AdminqInfo) (m : Machine) (served : ℕ) : Prop where
  entries : aq.numAsqEntries ≠ 0
  count : aq.count = aq.numAsqEntries
  ring : m.dev.ring = aq.regs
  use : aq.nextToUse.toNat = served % aq.numAsqEntries.toNat
  head : (m.dev.macReg pfAtqh).toNat = served % aq.numAsqEntries.toNat
  tail : (m.dev.macReg pfAtqt).toNat = served % aq.numAsqEntries.toNat

/-- The calls were each posted to their slot of the ring, fetched from there unchanged and written
back there. What was posted is the descriptor of the call, unless the slot's own buffer overlaps the
slot; what is written back is the firmware's answer or a descriptor that says it is done. -/
inductive Served (ring : RingRegs) (bufs : ℕ → UInt64) (first : ℕ) :
    List AsqCall → List AtqEvent → Prop
  | none : Served ring bufs first [] []
  | next {calls : List AsqCall} {events answers : List AtqEvent} {index : ℕ} {slot : UInt64}
      {desc result : AqDesc} (call : AsqCall) (earlier : Served ring bufs first calls events)
      (hindex : index = (first + calls.length) % ring.ringLen.toNat)
      (hslot : slot = recordAt AqDesc.size ring.base index)
      (hdesc : call.Spares (bufs index) slot → desc = call.onRing (bufs index))
      (hanswers : answers = [] ∧ result.Done ∨ answers = [.answered result]) :
      Served ring bufs first (calls ++ [call]) (events ++
        (.posted slot desc :: .fetched ring slot desc ::
          (answers ++ [.writtenBack ring slot result])))

/-- The calls that reach the ring. -/
def reached (aq : AdminqInfo) (calls : List AsqCall) : List AsqCall :=
  calls.filter fun call => call.buffSize ≤ aq.asqBufSize

/-- How many of the calls reach the ring. -/
def reaching (aq : AdminqInfo) (calls : List AsqCall) : ℕ :=
  calls.countP fun call => call.buffSize ≤ aq.asqBufSize

/-- As many calls reach the ring as `reaching` counts. -/
theorem reached_length (aq : AdminqInfo) (calls : List AsqCall) :
    (reached aq calls).length = reaching aq calls :=
  List.countP_eq_length_filter.symm

section Step

variable {aq : AdminqInfo} {m m' : Machine} {served : ℕ}

/-- A ring in step has a slot. -/
theorem InStep.entries_pos (h : InStep aq m served) : 0 < aq.numAsqEntries.toNat :=
  Nat.pos_of_ne_zero fun hzero => h.entries (UInt16.toNat_inj.mp hzero)

/-- The driver's next slot is the one with the number of commands served, modulo the size. -/
theorem InStep.slot_eq (h : InStep aq m served) :
    aq.slot = recordAt AqDesc.size aq.regs.base (served % aq.regs.ringLen.toNat) := by
  rw [AdminqInfo.slot, adminqDesc_eq, AdminqInfo.regs_base, AdminqInfo.regs_ringLen, h.use]

/-- The device's head is at the driver's next slot. -/
theorem InStep.headSlot (h : InStep aq m served) : m.headSlot = aq.slot := by
  rw [Machine.headSlot, RingRegs.slot_eq, h.ring, h.slot_eq, h.head, AdminqInfo.regs_ringLen]

/-- The driver's wrap test is the ring's. -/
theorem bumped_nextToUse (hcount : aq.count = aq.numAsqEntries)
    (hlt : aq.nextToUse.toNat < aq.numAsqEntries.toNat) :
    aq.bumped.nextToUse.toNat = Ring.next aq.numAsqEntries.toNat aq.nextToUse.toNat := by
  have hentries := aq.numAsqEntries.toNat_lt
  have hsucc : (aq.nextToUse + 1).toNat = aq.nextToUse.toNat + 1 := by
    rw [UInt16.toNat_add, UInt16.toNat_one, Nat.mod_eq_of_lt (by omega)]
  have hwrap : aq.nextToUse + 1 = aq.count ↔ aq.nextToUse.toNat + 1 ≥ aq.numAsqEntries.toNat := by
    rw [hcount, ← UInt16.toNat_inj, hsucc]
    omega
  rw [AdminqInfo.bumped, Ring.next]
  by_cases h : aq.nextToUse.toNat + 1 ≥ aq.numAsqEntries.toNat
  · rw [if_pos (hwrap.mpr h), if_pos h]
    rfl
  · rw [if_neg (hwrap.not.mpr h), if_neg h, hsucc]

/-- The next command keeps the two in step. -/
theorem InStep.next (h : InStep aq m served) {call : AsqCall}
    (hwritten : TailWritten (posted aq call m) aq.bumped.nextToUse.toUInt32 m') :
    InStep aq.bumped m' (served + 1) := by
  have hmod : served % aq.numAsqEntries.toNat < aq.numAsqEntries.toNat :=
    Nat.mod_lt _ h.entries_pos
  have huse : aq.bumped.nextToUse.toNat = (served + 1) % aq.numAsqEntries.toNat := by
    rw [bumped_nextToUse h.count (by rw [h.use]; exact hmod), h.use, Ring.next_mod h.entries_pos]
  refine ⟨h.entries, h.count, hwritten.ring.trans h.ring, huse, ?_, ?_⟩
  · have hentries := aq.numAsqEntries.toNat_lt
    have hhead : ((posted aq call m).dev.macReg pfAtqh).toNat = served % aq.numAsqEntries.toNat :=
      h.head
    have hlen : (posted aq call m).dev.ring.ringLen = aq.numAsqEntries := by
      rw [show (posted aq call m).dev.ring = aq.regs from h.ring, AdminqInfo.regs_ringLen]
    rw [hwritten.head, nextHead_toNat _ (by omega), hlen, hhead, Ring.next_mod h.entries_pos]
    rfl
  · rw [hwritten.tail, UInt16.toNat_toUInt32, huse]
    rfl

/-- The next command is processed in the slot it was posted to. -/
theorem InStep.served_next {first : ℕ} {calls : List AsqCall}
    (h : InStep aq m (first + calls.length)) {call : AsqCall} {trace events : List AtqEvent}
    (hserved : Served aq.regs aq.asqBi first calls events) (htrace : m.trace = trace ++ events)
    (hwritten : TailWritten (posted aq call m) aq.bumped.nextToUse.toUInt32 m') :
    ∃ events', Served aq.regs aq.asqBi first (calls ++ [call]) events' ∧
      m'.trace = trace ++ events' := by
  have hslot : (posted aq call m).headSlot = aq.slot := h.headSlot
  have hring : (posted aq call m).dev.ring = aq.regs := h.ring
  have hdesc : (posted aq call m).headDesc = command aq call m := by
    rw [Machine.headDesc, hslot, command, descAt]
  have hindex : aq.nextToUse.toNat = (first + calls.length) % aq.regs.ringLen.toNat := by
    rw [AdminqInfo.regs_ringLen, h.use]
  obtain ⟨result, answers, hevents, hanswers⟩ := hwritten.trace
  rw [hslot, hring, hdesc] at hevents
  refine ⟨_, .next call hserved hindex (hindex ▸ h.slot_eq)
    (fun hspares => command_eq_onRing aq m hspares) hanswers, ?_⟩
  rw [hevents]
  simp [posted, htrace, command]

end Step

section Run

variable (startXmit : Machine → Machine) {aq : AdminqInfo} {m : Machine} {first : ℕ}
  {before : List AsqCall} {trace events : List AtqEvent}

/-- A driver and a device in step serve any number of calls in step. -/
theorem InStep.sendCommands (h : InStep aq m (first + before.length))
    (hserved : Served aq.regs aq.asqBi first before events) (htrace : m.trace = trace ++ events)
    (calls : List AsqCall) :
    Interaction.Always (fun result => result.1.2.numAsqEntries = aq.numAsqEntries ∧
        InStep result.1.2 result.2 (first + (before ++ reached aq calls).length) ∧
        ∃ events', Served aq.regs aq.asqBi first (before ++ reached aq calls) events' ∧
          result.2.trace = trace ++ events')
      (sendCommands startXmit calls aq m) := by
  induction calls generalizing aq m before events with
  | nil =>
    rw [show before ++ reached aq [] = before from List.append_nil before]
    exact ⟨rfl, h, events, hserved, htrace⟩
  | cons call calls ih =>
    change Interaction.Always _ (e1000AsqSendCommand startXmit call aq m >>= fun result =>
      Driver.sendCommands startXmit calls result.1.2 result.2)
    rw [Interaction.always_bind]
    by_cases hsize : call.buffSize > aq.asqBufSize
    · obtain ⟨result, hrefused⟩ := e1000AsqSendCommand_refused startXmit aq m hsize
      have hreached : reached aq (call :: calls) = reached aq calls :=
        List.filter_cons_of_neg (by simpa using hsize)
      rw [hrefused, hreached]
      exact ih h hserved htrace
    · have hreached : before ++ reached aq (call :: calls) =
          before ++ [call] ++ reached aq calls := by
        rw [reached, List.filter_cons_of_pos (by simpa using hsize), List.append_assoc]
        rfl
      refine (e1000AsqSendCommand_posted startXmit aq m hsize).mono fun result hresult => ?_
      obtain ⟨hbumped, hwritten⟩ := hresult
      obtain ⟨events', hserved', htrace'⟩ := h.served_next hserved htrace hwritten
      have hstep : InStep aq.bumped result.2 (first + (before ++ [call]).length) := by
        rw [List.length_append, ← Nat.add_assoc]
        exact h.next hwritten
      rw [hreached, hbumped]
      exact ih hstep hserved' htrace'

/-- On a ring that has served nothing yet, the calls that reach it are all that is served. -/
theorem InStep.sendCommands_fresh (h : InStep aq m 0) (calls : List AsqCall) :
    Interaction.Always (fun result => result.1.2.numAsqEntries = aq.numAsqEntries ∧
        InStep result.1.2 result.2 (reaching aq calls) ∧
        ∃ events, Served aq.regs aq.asqBi 0 (reached aq calls) events ∧
          result.2.trace = m.trace ++ events)
      (Driver.sendCommands startXmit calls aq m) := by
  have hstart : InStep aq m (0 + ([] : List AsqCall).length) := h
  have hrun := hstart.sendCommands startXmit .none (List.append_nil m.trace).symm calls
  rwa [Nat.zero_add, List.nil_append, reached_length] at hrun

/-- Programming a newly allocated ring brings the two in step. -/
theorem TailWritten.inStep (aq : AdminqInfo) {m m' : Machine} (hentries : aq.numAsqEntries ≠ 0)
    {dma : UInt64} (hwritten : TailWritten (programmed (e1000AllocAdminqRings dma aq) m) 0 m') :
    InStep (e1000AllocAdminqRings dma aq) { m' with dev := m'.dev.setMac pfAtqh 0 } 0 := by
  refine ⟨hentries, rfl, ?_, by simp [e1000AllocAdminqRings], ?_, ?_⟩
  · change (m'.dev.setMac pfAtqh 0).ring = _
    rw [ring_setMac _ _ (by decide) (by decide) (by decide), hwritten.ring, programmed_ring]
  · change ((m'.dev.setMac pfAtqh 0).macReg pfAtqh).toNat = _
    simp
  · change ((m'.dev.setMac pfAtqh 0).macReg pfAtqt).toNat = _
    rw [E1000State.setMac_of_ne _ _ (by decide), hwritten.tail]
    simp

/-- So it does with every outcome of the tail write that it makes. -/
theorem e1000ConfigAdminqRegs_inStep (m : Machine)
    (hentries : aq.numAsqEntries ≠ 0) (dma : UInt64) :
    Interaction.Always (fun result => result.1.2 = e1000AllocAdminqRings dma aq ∧
        InStep (e1000AllocAdminqRings dma aq) result.2 0)
      (e1000ConfigAdminqRegs startXmit (e1000AllocAdminqRings dma aq) m) := by
  rw [e1000ConfigAdminqRegs_eq, Interaction.always_bind]
  exact (e1000SetAtqTail_written _ _).mono fun written hwritten =>
    ⟨rfl, TailWritten.inStep aq hentries hwritten⟩

end Run

/-- After any outcome of programming a newly allocated ring, and for every outcome of the calls
that follow, each call that reaches the ring is processed in the slot it was posted to, and
the driver's index, the head and the tail are the number of these calls modulo the size. -/
theorem sendCommands_lockStep {startXmit : Machine → Machine} {aq configured : AdminqInfo}
    {dma : UInt64} {start m : Machine} (hentries : aq.numAsqEntries ≠ 0)
    (hconfig : Interaction.Returns
      (e1000ConfigAdminqRegs startXmit (e1000AllocAdminqRings dma aq) start) (((), configured), m))
    (calls : List AsqCall) :
    Interaction.Always (fun result =>
        let index := reaching aq calls % aq.numAsqEntries.toNat
        result.1.2.nextToUse.toNat = index ∧ (result.2.dev.macReg pfAtqh).toNat = index ∧
          (result.2.dev.macReg pfAtqt).toNat = index ∧
          ∃ events, result.2.trace = m.trace ++ events ∧
            Served (e1000AllocAdminqRings dma aq).regs aq.asqBi 0 (reached aq calls) events)
      (sendCommands startXmit calls configured m) := by
  obtain ⟨hconfigured, hinStep⟩ :=
    (e1000ConfigAdminqRegs_inStep startXmit start hentries dma).returns hconfig
  subst hconfigured
  refine (hinStep.sendCommands_fresh startXmit calls).mono fun result hresult => ?_
  obtain ⟨hsize, hend, events, hserved, htrace⟩ := hresult
  have huse := hend.use
  have hhead := hend.head
  have htail := hend.tail
  rw [hsize] at huse hhead htail
  exact ⟨huse, hhead, htail, events, htrace, hserved⟩

/-- A driver with three slots to allocate. -/
def threeSlots : AdminqInfo :=
  { numAsqEntries := 3, asqBufSize := 512, dma := 0, count := 0, nextToUse := 0,
    asqBi := fun _ => 0 }

/-- The call that asks for the firmware's version. -/
def getVersionCall : AsqCall :=
  { desc := { flags := 0, opcode := 1, datalen := 0, retval := 0, cookieHigh := 0, cookieLow := 1,
              param0 := 0, param1 := 0, addrHigh := 0, addrLow := 0 }
    buff := none
    buffSize := 0 }

/-- Four calls on three slots come back to the second slot. -/
theorem four_calls_on_three_slots : ∃ configured m,
    Interaction.Returns (e1000ConfigAdminqRegs id (e1000AllocAdminqRings 0x1000 threeSlots) default)
        (((), configured), m) ∧
      Interaction.Always (fun result =>
          result.1.2.nextToUse.toNat = 1 ∧ (result.2.dev.macReg pfAtqh).toNat = 1)
        (sendCommands id (List.replicate 4 getVersionCall) configured m) := by
  obtain ⟨⟨⟨⟨⟩, configured⟩, m⟩, hreturns⟩ : ∃ result, Interaction.Returns
      (e1000ConfigAdminqRegs id (e1000AllocAdminqRings 0x1000 threeSlots) default) result :=
    ⟨_, Interaction.returns_resolve refused _⟩
  refine ⟨configured, m, hreturns, ?_⟩
  have hindex : reaching threeSlots (List.replicate 4 getVersionCall) %
      threeSlots.numAsqEntries.toNat = 1 := by decide
  refine (sendCommands_lockStep (by decide) hreturns _).mono fun result hresult => ?_
  rw [hindex] at hresult
  exact ⟨hresult.1, hresult.2.1⟩

end VirtualFirmware.Driver
