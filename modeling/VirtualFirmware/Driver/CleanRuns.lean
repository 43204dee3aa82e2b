import VirtualFirmware.Driver.CleanStep
import VirtualFirmware.System.Fallback

/-!
# The account over whole runs

The driver sets up the queue, which includes a first command, and sends any number of
commands, cleaning the ring before each of them. The cleanings are all exact exactly if the
commands, the first one included, are no more than the slots of the ring and no more than
the head that the device had before.
-/

namespace VirtualFirmware.Driver.Asq

open Library Adminq Device

section Runs

variable (startXmit : Machine → Machine)

/-- Commands one after another, with the cleaning. -/
def sendCommands : List AsqCall → AsqM Unit
  | [] => return
  | call :: calls => do
    let _ ← e1000AsqSendCommand startXmit true call
    sendCommands calls

/-- The queue is set up and commands are sent. -/
def cleaningSession (setup : Setup) (calls : List AsqCall) : AsqM Unit := do
  let _ ← e1000InitAdminq startXmit true setup
  sendCommands startXmit calls

end Runs

variable {s s' : AsqState} {aq : AdminqInfo} {m m' : Machine} {head served : ℕ}

/-- Any number of commands, once they are completed, take the account as many commands further. -/
theorem sendCommands_progress (startXmit : Machine → Machine) (s : AsqState) (aq : AdminqInfo)
    (m : Machine) (calls : List AsqCall) :
    Interaction.Always (fun result => Grows s result.1.1.2 ∧
        result.1.2.numAsqEntries = aq.numAsqEntries ∧
        (AllComplete aq.dma aq.numAsqEntries result.1.1.2 →
          ∀ {head served}, Progress s aq m head served →
          Progress result.1.1.2 result.1.2 result.2 head (served + reaching aq calls)))
      (sendCommands startXmit calls s aq m) := by
  induction calls generalizing s aq m with
  | nil => exact ⟨⟨List.Subset.refl _, List.Subset.refl _⟩, rfl, fun _ _ _ h => h⟩
  | cons call calls ih =>
    change Interaction.Always _ (e1000AsqSendCommand startXmit true call s aq m >>= fun result =>
      sendCommands startXmit calls result.1.1.2 result.1.2 result.2)
    rw [Interaction.always_bind]
    refine (e1000AsqSendCommand_step startXmit s aq m call).mono fun first hstep => ?_
    obtain ⟨hentries, hdma, hbufSize⟩ := hstep.queue
    refine (ih first.1.1.2 first.1.2 first.2).mono fun last hlast => ?_
    obtain ⟨hgrows, hentries', hrest⟩ := hlast
    refine ⟨hstep.grows.trans hgrows, hentries'.trans hentries,
      fun hcomplete head served hprogress => ?_⟩
    rw [hentries, hdma] at hrest
    have hreaching : reaching first.1.2 calls = reaching aq calls := by
      rw [reaching, reaching, hbufSize]
    rw [hreaching] at hrest
    by_cases hfits : call.buffSize ≤ aq.asqBufSize
    · have hcount : served + reaching aq (call :: calls) = served + 1 + reaching aq calls := by
        rw [reaching, List.countP_cons_of_pos (by simpa using hfits), reaching]
        omega
      rw [hcount]
      exact hrest hcomplete (hstep.progress hfits (hgrows.allComplete hcomplete) hprogress)
    · have hcount : reaching aq (call :: calls) = reaching aq calls :=
        List.countP_cons_of_neg (by simpa using hfits)
      rw [hcount]
      exact hrest hcomplete (hstep.progress_oversize hfits hprogress)

/-- The account is exact as long as the commands stay before the old head and the ring's end. -/
theorem Progress.allExact_iff (h : Progress s aq m head served) :
    AllExact aq.numAsqEntries s ↔ served ≤ min head aq.numAsqEntries.toNat := by
  cases h with
  | exact haccount hall => exact iff_of_true hall (le_min haccount.beforeHead haccount.beforeEnd)
  | broken hlate hsome => exact iff_of_false hsome (by omega)

/-- The driver and the machine when the queue is set up: a valid configuration with at least two
slots, new memory for the ring in which no slot is done, buffers apart from it, and nothing noted
yet. -/
structure Start (setup : Setup) (dma : UInt64) (s : AsqState) (m : Machine) : Prop where
  valid : setup.Valid
  entries : 2 ≤ setup.numAsqEntries.toNat
  ring : setup.ring = some dma
  mapped : dma ≠ 0
  clear : ∀ i < setup.numAsqEntries.toNat, ¬ SlotDone m.ram dma i
  apart : ∀ i < setup.numAsqEntries.toNat, ∀ k < setup.numAsqEntries.toNat,
    AddressSpace.Apart (recordAt AqDesc.size dma i) AqDesc.size (setup.bufs k)
      setup.asqBufSize.toNat
  nextToClean : s.nextToClean = 0
  cleanings : s.cleanings = []
  tailWrites : s.tailWrites = []

/-- In every run in which the device completes each command, every cleaning is exact. -/
def AccountKept (startXmit : Machine → Machine) (setup : Setup) (dma : UInt64)
    (calls : List AsqCall) (s : AsqState) (aq : AdminqInfo) (m : Machine) : Prop :=
  Interaction.Always (fun result => AllComplete dma setup.numAsqEntries result.1.1.2 →
      AllExact setup.numAsqEntries result.1.1.2)
    (cleaningSession startXmit setup calls s aq m)

variable {setup : Setup} {dma : UInt64}

/-- Programming the ring opens the account: the slot at the old head is done. -/
theorem Start.account (h : Start setup dma s m) (aq : AdminqInfo)
    (hclean : s'.nextToClean = s.nextToClean)
    (hwritten : TailWritten (programmed (setup.allocated dma aq) m) 0 m')
    (hcompletes :
      Completes dma setup.numAsqEntries.toNat (programmed (setup.allocated dma aq) m) m') :
    Account s' (setup.allocated dma aq) { m' with dev := m'.dev.setMac pfAtqh 0 }
      (m.dev.macReg pfAtqh).toNat 0 := by
  have hentries : setup.numAsqEntries ≠ 0 := fun hzero => h.valid (.inl hzero)
  have hlt := setup.numAsqEntries.toNat_lt
  have hinStep : InStep (setup.allocated dma aq) { m' with dev := m'.dev.setMac pfAtqh 0 } 0 :=
    TailWritten.inStep { setup.configured aq with asqBi := setup.bufs } hentries hwritten
  have hslot : (programmed (setup.allocated dma aq) m).headSlot =
      recordAt AqDesc.size dma (m.dev.macReg pfAtqh).toNat := by
    rw [Machine.headSlot, RingRegs.slot_eq, programmed_ring, programmed_head, AdminqInfo.regs_base]
    rfl
  refine ⟨hinStep, h.entries, h.apart, Nat.zero_le _, Nat.zero_le _, ?_, fun i hi => ?_⟩
  · rw [hclean, h.nextToClean]
    rfl
  · have hafter := hcompletes.slotDone_iff hslot (UInt32.toNat_lt _) (by omega) hi
    have hclear : ¬ SlotDone (programmed (setup.allocated dma aq) m).ram dma i := h.clear i hi
    change SlotDone m'.ram dma i ↔ _
    rw [hafter]
    simp [hclear]

/-- The commands of a session that reach the ring, the one of the setup included. -/
def commandsOf (setup : Setup) (calls : List AsqCall) : ℕ :=
  1 + calls.countP fun call => call.buffSize ≤ setup.asqBufSize

/-- A session that is completed ends with the account of its commands. -/
theorem Start.session (h : Start setup dma s m) (startXmit : Machine → Machine) (aq : AdminqInfo)
    (calls : List AsqCall) :
    Interaction.Always (fun result => AllComplete dma setup.numAsqEntries result.1.1.2 →
        (AllExact setup.numAsqEntries result.1.1.2 ↔
          commandsOf setup calls ≤ min (m.dev.macReg pfAtqh).toNat setup.numAsqEntries.toNat))
      (cleaningSession startXmit setup calls s aq m) := by
  change Interaction.Always _ (e1000InitAdminq startXmit true setup s aq m >>= fun result =>
    sendCommands startXmit calls result.1.1.2 result.1.2 result.2)
  rw [Interaction.always_bind,
    e1000InitAdminq_eq s aq m startXmit setup true h.valid h.ring h.mapped, Interaction.always_bind,
    e1000ConfigAdminqRegs_eq, Interaction.always_bind]
  refine (e1000SetAtqTail_written _ _).mono fun written hwritten => ?_
  change Interaction.Always _ (_ >>= _)
  rw [Interaction.always_bind]
  refine (e1000AsqSendCommand_step startXmit _ _ _ _).mono fun first hstep => ?_
  obtain ⟨hentries, hdma, hbufSize⟩ := hstep.queue
  refine (sendCommands_progress startXmit _ _ _ calls).mono fun last hlast hcomplete => ?_
  obtain ⟨hgrows, hentries', hrest⟩ := hlast
  have hfirst : AllComplete dma setup.numAsqEntries first.1.1.2 := fun write hmem =>
    hcomplete write (hgrows.tailWrites hmem)
  have hconfig : Completes dma setup.numAsqEntries.toNat (programmed (setup.allocated dma aq) m)
      written.2 :=
    hfirst (_, _) (hstep.grows.tailWrites (List.mem_append_right _ (List.mem_singleton_self _)))
  have hnone : AllExact setup.numAsqEntries s := by
    intro cleaning hmem
    rw [h.cleanings] at hmem
    exact absurd hmem List.not_mem_nil
  have hopened :=
    hstep.progress (Nat.zero_le _) hfirst (.exact (h.account aq rfl hwritten hconfig) hnone)
  have hlast := hrest (by rw [hdma, hentries]; exact hcomplete) (hopened.congr rfl rfl)
  have hcount : 0 + 1 + reaching first.1.2 calls = commandsOf setup calls := by
    rw [reaching, hbufSize]
    rfl
  have hsize : last.1.2.numAsqEntries = setup.numAsqEntries := hentries'.trans hentries
  rw [← hcount, ← hsize]
  exact hlast.allExact_iff

section Completed

variable {val : UInt32} (dma : UInt64) (count : UInt16)

/-- A command that the device carries out itself is completed. -/
theorem completes_of_carriedOut (h : System.CarriedOutByDevice m val m') :
    Completes dma count.toNat m m' :=
  ⟨m.ram, completed m.headDesc, AqDesc.done_setDone _, h.ram, fun _ _ => rfl⟩

/-- A command that a fresh firmware answers is completed. -/
theorem completes_of_answered (h : System.AnsweredByFirmware m val m') :
    Completes dma count.toNat m m' := by
  obtain ⟨-, rfl⟩ := h.eq
  exact ⟨m.ram, Firmware.respond m.headDesc, Firmware.respond_done _,
    System.machineAnswered_ram m val, fun _ _ => rfl⟩

/-- Without a connection every tail write completes its command. -/
theorem completes_refused (val : UInt32) (m : Machine) :
    Completes dma count.toNat m ((e1000SetAtqTail pfAtqt val m).resolve refused).2 :=
  have hcarriedOut :
      System.CarriedOutByDevice m val ((e1000SetAtqTail pfAtqt val m).resolve refused).2 :=
    ⟨Interaction.returns_resolve refused _, fun _ => e1000SetAtqTail_refused val m⟩
  completes_of_carriedOut dma count hcarriedOut

variable {dma count}

/-- One more completed tail write leaves all of them completed. -/
theorem AllComplete.wrote (h : AllComplete dma count s) {before after : Machine}
    (hwrite : Completes dma count.toNat before after) :
    AllComplete dma count (s.wrote before after) := by
  intro write hmem
  rcases List.mem_append.mp hmem with hmem | hmem
  · exact h write hmem
  · rw [List.mem_singleton.mp hmem]
    exact hwrite

/-- A command without a connection is completed if it reaches the ring. -/
theorem AllComplete.send_refused (h : AllComplete dma count s) (startXmit : Machine → Machine)
    (aq : AdminqInfo) (m : Machine) (call : AsqCall) :
    AllComplete dma count
      ((e1000AsqSendCommand startXmit true call s aq m).resolve refused).1.1.2 := by
  by_cases hsize : call.buffSize > aq.asqBufSize
  · rw [e1000AsqSendCommand_oversize s aq m startXmit hsize]
    exact h
  · rw [e1000AsqSendCommand_cleaned s aq m startXmit hsize]
    split
    · exact h
    · rw [postCommand_eq, Interaction.resolve_bind]
      exact AllComplete.wrote h (completes_refused dma count _ _)

/-- Without a connection any number of commands are completed by the device. -/
theorem AllComplete.sendCommands_refused (h : AllComplete dma count s)
    (startXmit : Machine → Machine) (aq : AdminqInfo) (m : Machine) (calls : List AsqCall) :
    AllComplete dma count ((sendCommands startXmit calls s aq m).resolve refused).1.1.2 := by
  induction calls generalizing s aq m with
  | nil => exact h
  | cons call calls ih =>
    change AllComplete dma count ((e1000AsqSendCommand startXmit true call s aq m >>= fun result =>
      sendCommands startXmit calls result.1.1.2 result.1.2 result.2).resolve refused).1.1.2
    rw [Interaction.resolve_bind]
    exact ih (h.send_refused startXmit aq m call) _ _

end Completed

/-- Storing the answer of a command does not touch the tail. -/
theorem allComplete_stored
    {program : Interaction DeviceOp DeviceReply (((AsqResult × AsqState) × AdminqInfo) × Machine)}
    (versions : AsqResult → Versions → Versions)
    (h : AllComplete dma setup.numAsqEntries (program.resolve refused).1.1.2) :
    AllComplete dma setup.numAsqEntries ((program >>= fun sent =>
      .pure ((((0 : Int), { sent.1.1.2 with versions := versions sent.1.1.1 sent.1.1.2.versions }),
        sent.1.2), sent.2)).resolve refused).1.1.2 := by
  rw [Interaction.resolve_bind]
  exact h

/-- Without a connection the commands of the setup are completed by the device. -/
theorem Start.init_refused (h : Start setup dma s m) (startXmit : Machine → Machine)
    (aq : AdminqInfo) :
    AllComplete dma setup.numAsqEntries
      ((e1000InitAdminq startXmit true setup s aq m).resolve refused).1.1.2 := by
  have hnone : AllComplete dma setup.numAsqEntries s := by
    intro write hmem
    rw [h.tailWrites] at hmem
    exact absurd hmem List.not_mem_nil
  have hconfigured : AllComplete dma setup.numAsqEntries ((e1000ConfigAdminqRegs startXmit
      (s.noted [.init, .modify .ring, .modify .nextToUse]) (setup.allocated dma aq) m).resolve
      refused).1.1.2 := by
    rw [e1000ConfigAdminqRegs_eq, Interaction.resolve_bind]
    exact AllComplete.wrote hnone (completes_refused dma setup.numAsqEntries _ _)
  rw [e1000InitAdminq_eq s aq m startXmit setup true h.valid h.ring h.mapped,
    Interaction.resolve_bind]
  generalize (e1000ConfigAdminqRegs startXmit _ _ m).resolve refused = configured at hconfigured ⊢
  exact allComplete_stored (fun result versions =>
    versions.storeAnswer result .fwMaj .fwMin .apiMaj .apiMin)
    (hconfigured.send_refused startXmit _ _ _)

/-- A session without a connection is completed. -/
theorem Start.session_refused (h : Start setup dma s m) (startXmit : Machine → Machine)
    (aq : AdminqInfo) (calls : List AsqCall) :
    AllComplete dma setup.numAsqEntries
      ((cleaningSession startXmit setup calls s aq m).resolve refused).1.1.2 := by
  change AllComplete dma setup.numAsqEntries
    ((e1000InitAdminq startXmit true setup s aq m >>= fun result =>
    sendCommands startXmit calls result.1.1.2 result.1.2 result.2).resolve refused).1.1.2
  rw [Interaction.resolve_bind]
  exact (h.init_refused startXmit aq).sendCommands_refused startXmit _ _ calls

/-- Every cleaning of a session is exact, whenever the device completes its commands, exactly if the
commands are no more than the slots of the ring and no more than the head of before. -/
theorem accountKept_iff (startXmit : Machine → Machine) {setup : Setup} {dma : UInt64}
    {s : AsqState} {m : Machine} (h : Start setup dma s m) (aq : AdminqInfo)
    (calls : List AsqCall) :
    AccountKept startXmit setup dma calls s aq m ↔
      commandsOf setup calls ≤ min (m.dev.macReg pfAtqh).toNat setup.numAsqEntries.toNat := by
  have hsession := h.session startXmit aq calls
  constructor
  · intro hkept
    have hcomplete := h.session_refused startXmit aq calls
    exact (hsession.resolve refused hcomplete).mp (hkept.resolve refused hcomplete)
  · intro hcount
    exact hsession.mono fun result hresult hcomplete => (hresult hcomplete).mpr hcount

/-- Two slots with buffers of 512 bytes. -/
def twoSlotsSetup : Setup :=
  { numAsqEntries := 2, asqBufSize := 512, ring := some 0x1000, bufs := fun _ => 0x2000,
    cookie := 0 }

/-- A machine with empty memory whose device has this head. -/
def machineWithHead (head : UInt32) : Machine :=
  { (default : Machine) with dev := (default : Machine).dev.setMac pfAtqh head }

/-- The two slots are empty and apart from the buffers. -/
theorem start_twoSlots (head : UInt32) :
    Start twoSlotsSetup 0x1000 freshState (machineWithHead head) where
  valid := by decide
  entries := by decide
  ring := rfl
  mapped := by decide
  clear := by
    change ∀ i < 2, ¬ SlotDone (default : Machine).ram 0x1000 i
    decide
  apart := by
    change ∀ i < 2, ∀ k < 2, ∀ offset < 32, 512 ≤
      (recordAt AqDesc.size 0x1000 i + UInt64.ofNat offset - 0x2000).toNat
    decide
  nextToClean := rfl
  cleanings := rfl
  tailWrites := rfl

/-- Two commands on two slots, with the old head behind the ring. -/
theorem accountKept_two : Start twoSlotsSetup 0x1000 freshState (machineWithHead 2) ∧
    AccountKept id twoSlotsSetup 0x1000 [getVersionCall] freshState threeSlots
      (machineWithHead 2) :=
  ⟨start_twoSlots 2,
    (accountKept_iff id (start_twoSlots 2) threeSlots [getVersionCall]).mpr (by decide)⟩

/-- On a device whose head is zero, the first cleaning takes the slot that was processed when the
ring was programmed for a command, ends ahead of `next_to_use` and finds no free slot: the command
of the setup is not even posted. -/
theorem first_command_finds_queue_full : ∃ result,
    Interaction.Returns
      (cleaningSession id twoSlotsSetup [] freshState threeSlots (machineWithHead 0)) result ∧
      AllComplete 0x1000 2 result.1.1.2 ∧ result.1.1.2.tailWrites.length = 1 ∧
      result.1.1.2.cleanings = [⟨[0, 1], 1, 0, 0⟩] ∧ ¬ AllExact 2 result.1.1.2 := by
  have hcleanings :
      ((cleaningSession id twoSlotsSetup [] freshState threeSlots (machineWithHead 0)).resolve
      refused).1.1.2.cleanings = [⟨[0, 1], 1, 0, 0⟩] := by decide +kernel
  refine ⟨_, Interaction.returns_resolve refused _,
    (start_twoSlots 0).session_refused id threeSlots [], by decide +kernel, hcleanings,
    fun hall => ?_⟩
  have hexact := hall ⟨[0, 1], 1, 0, 0⟩ (by rw [hcleanings]; exact List.mem_singleton_self _)
  exact absurd hexact.caughtUp (by decide)

end VirtualFirmware.Driver.Asq
