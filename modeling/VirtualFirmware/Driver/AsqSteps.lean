import VirtualFirmware.Driver.Asq

/-!
# What the locked driver does

Each function is brought to the form in which the results below use it: what it notes about
the lock and the cleaning, and the tail writes in between, which are the only places where
something outside the driver decides.
-/

namespace VirtualFirmware.Driver

open Library Adminq Device

/-- The state with more lock events. -/
def AsqState.noted (s : AsqState) (events : List (LockEvent Shared)) : AsqState :=
  { s with lockEvents := s.lockEvents ++ events }

/-- The state with one more tail write. -/
def AsqState.wrote (s : AsqState) (before after : Machine) : AsqState :=
  { s with tailWrites := s.tailWrites ++ [(before, after)] }

/-- Noting two lists of events notes their concatenation. -/
@[simp] theorem AsqState.noted_noted (s : AsqState) (first second : List (LockEvent Shared)) :
    (s.noted first).noted second = s.noted (first ++ second) := by
  simp [noted]

/-- The events are noted at the end. -/
@[simp] theorem AsqState.noted_lockEvents (s : AsqState) (events : List (LockEvent Shared)) :
    (s.noted events).lockEvents = s.lockEvents ++ events := rfl

/-- A tail write that is noted is no lock event. -/
@[simp] theorem AsqState.wrote_lockEvents (s : AsqState) (before after : Machine) :
    (s.wrote before after).lockEvents = s.lockEvents := rfl

/-- Noting no event changes nothing. -/
@[simp] theorem AsqState.noted_nil (s : AsqState) : s.noted [] = s := by
  simp [noted]

/-- The state before anything has happened. -/
def Asq.freshState : AsqState :=
  { nextToClean := 0, versions := ⟨0, 0, 0, 0⟩, lockEvents := [], cleanings := [],
    tailWrites := [] }

namespace Asq

/-- What the loop of `e1000_clean_asq` did: the slots it looked at, the index at which it ended,
what it modified, and guest RAM afterwards. -/
structure Cleaned where
  inspected : List UInt16
  last : UInt16
  targets : List Shared
  ram : AddressSpace

/-- Guest RAM with one slot cleared. -/
def cleared (aq : AdminqInfo) (i : UInt16) (ram : AddressSpace) : AddressSpace :=
  ram.write (adminqDesc aq i) (List.replicate AqDesc.size 0)

/-- The loop as a function of guest RAM. -/
def cleaned (aq : AdminqInfo) : ℕ → UInt16 → AddressSpace → Cleaned
  | 0, i, ram => ⟨[], i, [], ram⟩
  | fuel + 1, i, ram =>
    if (descAt ram (adminqDesc aq i)).Done then
      let rest := cleaned aq fuel (i + 1) (cleared aq i ram)
      { rest with inspected := i :: rest.inspected, targets := .ring :: rest.targets }
    else ⟨[i], i, [], ram⟩

section Equations

variable (s : AsqState) (aq : AdminqInfo) (m : Machine)

/-- The loop modifies slots of the ring and nothing else. -/
theorem cleanSlots_eq (fuel : ℕ) (i : UInt16) :
    cleanSlots fuel i s aq m =
      .pure (((((cleaned aq fuel i m.ram).inspected, (cleaned aq fuel i m.ram).last),
        s.noted ((cleaned aq fuel i m.ram).targets.map .modify)), aq),
        { m with ram := (cleaned aq fuel i m.ram).ram }) := by
  induction fuel generalizing i s m with
  | zero =>
    rw [cleaned, List.map_nil, s.noted_nil]
    rfl
  | succ fuel ih =>
    change (if decide (descAt m.ram (adminqDesc aq i)).Done = true then _
      else _ : AsqM _) s aq m = _
    unfold cleaned
    by_cases hdone : (descAt m.ram (adminqDesc aq i)).Done
    · rw [if_pos (decide_eq_true hdone), if_pos hdone]
      change (cleanSlots fuel (i + 1) (s.noted [.modify .ring]) aq
        { m with ram := cleared aq i m.ram } >>= fun result =>
          .pure ((((i :: result.1.1.1.1, result.1.1.1.2), result.1.1.2), result.1.2), result.2)) = _
      rw [ih, Interaction.pure_bind, AsqState.noted_noted]
      rfl
    · rw [if_neg (mt of_decide_eq_true hdone), if_neg hdone, List.map_nil, s.noted_nil]
      rfl

/-- What the cleaning leaves behind. -/
def afterClean (result : Cleaned) : AsqState :=
  { s.noted (result.targets.map .modify) with
    nextToClean := result.last
    cleanings := s.cleanings ++ [⟨result.inspected, result.last, aq.nextToUse,
      descUnused aq.count result.last aq.nextToUse⟩] }

/-- What the loop does when `e1000_clean_asq` is called. -/
def cleanedNow : Cleaned := cleaned aq 65537 s.nextToClean m.ram

/-- `e1000_clean_asq` runs the loop and counts. -/
theorem e1000CleanAsq_eq :
    e1000CleanAsq s aq m =
      .pure (((descUnused aq.count (cleanedNow s aq m).last aq.nextToUse,
          afterClean s aq (cleanedNow s aq m)), aq),
        { m with ram := (cleanedNow s aq m).ram }) := by
  have hloop : e1000CleanAsq s aq m = cleanSlots 65537 s.nextToClean s aq m >>= fun result =>
      let unused := descUnused result.1.2.count result.1.1.1.2 result.1.2.nextToUse
      .pure (((unused, { result.1.1.2 with
        nextToClean := result.1.1.1.2
        cleanings := result.1.1.2.cleanings ++
          [Cleaning.mk result.1.1.1.1 result.1.1.1.2 result.1.2.nextToUse unused] }), result.1.2),
          result.2) := rfl
  rw [hloop, cleanSlots_eq]
  rfl

variable (startXmit : Machine → Machine) (call : AsqCall)

/-- A tail write is noted with the machine around it. -/
theorem writeTail_eq (val : UInt32) :
    writeTail startXmit val s aq m =
      e1000SetAtqTail pfAtqt val m >>= fun written =>
        .pure ((((), (s.noted [.modify .tail]).wrote m written.2), aq), written.2) := by
  have hwrite : writeTail startXmit val s aq m =
      ((e1000SetAtqTail pfAtqt val m >>= fun written => .pure (((), aq), written.2)) >>=
        fun written => .pure ((((), s.noted [.modify .tail]), written.1.2), written.2)) >>=
        fun written =>
          .pure ((((), written.1.1.2.wrote m written.2), written.1.2), written.2) := rfl
  rw [hwrite, Interaction.bind_assoc, Interaction.bind_assoc]
  rfl

/-- What a posted command modifies before it writes the tail. -/
def filled : List Shared := (if call.buff.isSome then [.ring, .ring] else [.ring]) ++ [.nextToUse]

/-- The modifications that fill a slot are noted one by one: the ring, again with a buffer, and the
index. -/
theorem noted_filled :
    s.noted ((filled call).map .modify) =
      (if call.buff.isSome then (s.noted [.modify .ring]).noted [.modify .ring]
        else s.noted [.modify .ring]).noted [.modify .nextToUse] := by
  unfold filled
  split <;> simp

/-- A command that is posted is one tail write after its slot is filled. -/
theorem postCommand_eq :
    postCommand startXmit call s aq m =
      e1000SetAtqTail pfAtqt aq.bumped.nextToUse.toUInt32 (posted aq call m) >>= fun written =>
        .pure (((collected call call.marked aq.slot (aq.asqBi aq.nextToUse.toNat) written.2.ram,
            (s.noted ((filled call ++ [Shared.tail]).map .modify ++ [.release])).wrote
              (posted aq call m) written.2),
          aq.bumped), written.2) := by
  have hposted : postCommand startXmit call s aq m =
      writeTail startXmit aq.bumped.nextToUse.toUInt32 (s.noted ((filled call).map .modify))
          aq.bumped (posted aq call m) >>= fun written =>
        (pollSlot aq.slot 100 written.1.2 written.2 >>= fun polled =>
          .pure ((((), written.1.1.2), polled.1.2), polled.2)) >>= fun polled =>
            (collect call call.marked aq.slot (aq.asqBi aq.nextToUse.toNat) polled.1.2
                polled.2 >>= fun result =>
              .pure (((result.1.1, polled.1.1.2), result.1.2), result.2)) >>= fun result =>
                .pure (((result.1.1.1, result.1.1.2.noted [.release]), result.1.2), result.2) := by
    rw [noted_filled]
    obtain ⟨desc, buff, buffSize⟩ := call
    cases buff <;> rfl
  rw [hposted, writeTail_eq, Interaction.bind_assoc]
  simp only [Interaction.pure_bind, pollSlot_eq, collect_eq, List.map_append,
    ← AsqState.noted_noted]
  rfl

/-- A call with too large a buffer is turned away, through the label that releases the lock. -/
theorem e1000AsqSendCommand_oversize {call : AsqCall} (h : call.buffSize > aq.asqBufSize)
    (cleaning : Bool) :
    e1000AsqSendCommand startXmit cleaning call s aq m =
      .pure ((({ status := errInvalidBuffSize, desc := call.desc, buff := call.buff },
        s.noted [.release]), aq), m) := by
  change (if call.buffSize > aq.asqBufSize then _ else _ : AsqM AsqResult) s aq m = _
  rw [if_pos h]
  rfl

/-- Without the cleaning any other call is posted. -/
theorem e1000AsqSendCommand_uncleaned {call : AsqCall} (h : ¬ call.buffSize > aq.asqBufSize) :
    e1000AsqSendCommand startXmit false call s aq m =
      postCommand startXmit call (s.noted [.acquire]) aq m := by
  change (if call.buffSize > aq.asqBufSize then _ else _ : AsqM AsqResult) s aq m = _
  rw [if_neg h]
  rfl

/-- With the cleaning it is posted if that finds a free slot. -/
theorem e1000AsqSendCommand_cleaned {call : AsqCall} (h : ¬ call.buffSize > aq.asqBufSize) :
    e1000AsqSendCommand startXmit true call s aq m =
      if descUnused aq.count (cleanedNow s aq m).last aq.nextToUse = 0 then
        .pure ((({ status := errQueueFull, desc := call.desc, buff := call.buff },
          (afterClean (s.noted [.acquire]) aq (cleanedNow s aq m)).noted [.release]), aq),
          { m with ram := (cleanedNow s aq m).ram })
      else postCommand startXmit call (afterClean (s.noted [.acquire]) aq (cleanedNow s aq m)) aq
        { m with ram := (cleanedNow s aq m).ram } := by
  have hclean : e1000AsqSendCommand startXmit true call s aq m =
      e1000CleanAsq (s.noted [.acquire]) aq m >>= fun result =>
        (if result.1.1.1 = 0 then
          platform.asqSendCommandError
            { status := errQueueFull, desc := call.desc, buff := call.buff }
        else postCommand startXmit call : AsqM AsqResult) result.1.1.2 result.1.2 result.2 := by
    change (if call.buffSize > aq.asqBufSize then _ else _ : AsqM AsqResult) s aq m = _
    rw [if_neg h]
    rfl
  rw [hclean, e1000CleanAsq_eq, Interaction.pure_bind]
  change (if descUnused aq.count (cleanedNow s aq m).last aq.nextToUse = 0 then _ else _ :
    AsqM AsqResult) _ _ _ = _
  split <;> rfl

/-- Without the cleaning it is the same driver, but for what is noted. -/
theorem e1000AsqSendCommand_erased :
    (e1000AsqSendCommand startXmit false call s aq m >>= fun result =>
      .pure ((result.1.1.1, result.1.2), result.2)) =
      Driver.e1000AsqSendCommand startXmit call aq m := by
  by_cases h : call.buffSize > aq.asqBufSize
  · rw [e1000AsqSendCommand_oversize s aq m startXmit h]
    change _ = (if call.buffSize > aq.asqBufSize then _ else _ : DriverM AsqResult) aq m
    rw [if_pos h]
    rfl
  · rw [e1000AsqSendCommand_uncleaned s aq m startXmit h, postCommand_eq, Interaction.bind_assoc,
      Driver.e1000AsqSendCommand_eq startXmit aq m h]
    rfl

/-- Programming the ring is one tail write, at the old head. -/
theorem e1000ConfigAdminqRegs_eq :
    e1000ConfigAdminqRegs startXmit s aq m =
      e1000SetAtqTail pfAtqt 0 (programmed aq m) >>= fun written =>
        .pure ((((), (s.noted [.modify .tail]).wrote (programmed aq m) written.2), aq),
          { written.2 with dev := written.2.dev.setMac pfAtqh 0 }) := by
  have hconfig : e1000ConfigAdminqRegs startXmit s aq m =
      writeTail startXmit 0 s aq (programmed aq m) >>= fun written =>
        .pure ((((), written.1.1.2), written.1.2),
          { written.2 with dev := written.2.dev.setMac pfAtqh 0 }) := rfl
  rw [hconfig, writeTail_eq, Interaction.bind_assoc]
  rfl

/-- The driver's state as the caller of `e1000_init_adminq` has set it. -/
def Setup.configured (setup : Setup) (aq : AdminqInfo) : AdminqInfo :=
  { aq with numAsqEntries := setup.numAsqEntries, asqBufSize := setup.asqBufSize }

/-- The driver's state with the ring and the buffers allocated. -/
def Setup.allocated (setup : Setup) (dma : UInt64) (aq : AdminqInfo) : AdminqInfo :=
  { Driver.e1000AllocAdminqRings dma (setup.configured aq) with asqBi := setup.bufs }

/-- The configuration that `e1000_init_adminq` does not turn away. -/
def Setup.Valid (setup : Setup) : Prop := ¬ (setup.numAsqEntries = 0 ∨ setup.asqBufSize = 0)

instance (setup : Setup) : Decidable setup.Valid := inferInstanceAs (Decidable (¬ _))

variable (setup : Setup) (cleaning : Bool)

/-- An invalid configuration is turned away. -/
theorem e1000InitAdminq_invalid (h : ¬ setup.Valid) :
    e1000InitAdminq startXmit cleaning setup s aq m =
      .pure (((-1, s), setup.configured aq), m) := by
  change (if setup.numAsqEntries = 0 ∨ setup.asqBufSize = 0 then _ else _ : AsqM Int) s
    (setup.configured aq) m = _
  rw [if_pos (not_not.mp h)]
  rfl

/-- Without memory for the ring nothing else happens. -/
theorem e1000InitAdminq_failed (h : setup.Valid) (hring : setup.ring = none ∨ setup.ring = some 0) :
    e1000InitAdminq startXmit cleaning setup s aq m =
      .pure (((-guestENOMEM, s.noted [.init, .modify .ring]), setup.configured aq), m) := by
  change (if setup.numAsqEntries = 0 ∨ setup.asqBufSize = 0 then _ else _ : AsqM Int) s
    (setup.configured aq) m = _
  have hnoted : s.noted [.init, .modify .ring] = (s.noted [.init]).noted [.modify .ring] := by simp
  rw [if_neg h, hnoted]
  rcases hring with hring | hring
  · rw [hring]
    rfl
  · rw [hring]
    rfl

/-- Otherwise the ring is programmed and the version asked for. -/
theorem e1000InitAdminq_eq (h : setup.Valid) {dma : UInt64} (hring : setup.ring = some dma)
    (hdma : dma ≠ 0) :
    e1000InitAdminq startXmit cleaning setup s aq m =
      e1000ConfigAdminqRegs startXmit (s.noted [.init, .modify .ring, .modify .nextToUse])
          (setup.allocated dma aq) m >>= fun programmed =>
        e1000AsqSendCommand startXmit cleaning (versionCall setup.cookie) programmed.1.1.2
            programmed.1.2 programmed.2 >>= fun sent =>
          .pure (((0, { sent.1.1.2 with
            versions := sent.1.1.2.versions.storeAnswer sent.1.1.1 .fwMaj .fwMin .apiMaj .apiMin }),
              sent.1.2), sent.2) := by
  change (if setup.numAsqEntries = 0 ∨ setup.asqBufSize = 0 then _ else _ : AsqM Int) s
    (setup.configured aq) m = _
  have hnoted : s.noted [.init, .modify .ring, .modify .nextToUse] =
      ((s.noted [.init]).noted [.modify .ring]).noted [.modify .nextToUse] := by simp
  have halloc : e1000AllocAdminqRings setup.ring ((s.noted [.init])) (setup.configured aq) m =
      .pure (((0, ((s.noted [.init]).noted [.modify .ring]).noted [.modify .nextToUse]),
        Driver.e1000AllocAdminqRings dma (setup.configured aq)), m) := by
    rw [hring]
    change (if dma = 0 then _ else _ : AsqM Int) _ _ _ = _
    rw [if_neg hdma]
    rfl
  have hinit (program : AsqM Int) :
      (e1000AllocAdminqRings setup.ring (s.noted [.init]) (setup.configured aq) m >>=
      fun result => (if result.1.1.1 ≠ 0 then pure result.1.1.1 else program : AsqM Int)
        result.1.1.2 result.1.2 result.2) =
      program (((s.noted [.init]).noted [.modify .ring]).noted [.modify .nextToUse])
        (Driver.e1000AllocAdminqRings dma (setup.configured aq)) m := by
    rw [halloc]
    rfl
  rw [if_neg h, hnoted]
  exact hinit _

end Equations

end Asq

end VirtualFirmware.Driver
