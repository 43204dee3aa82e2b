import VirtualFirmware.Driver.AdminqCmd
import VirtualFirmware.System.Answers

/-!
# The driver, the device and the firmware

The driver posts commands to the ring, the device exchanges each of them with the firmware, and the
driver collects what it finds in the slot. Whatever the order of steps, a call returns with the
firmware's answer to its own command, and the buffer of an echo comes back as it was.
-/

namespace VirtualFirmware.System

open Library Messaging Adminq Device Firmware Driver AddressSpace

/-- The driver's next call: the buffer fits the slot's own and the firmware's, does not overlap the
slot, and comes with an echo; a call without a buffer announces no data. -/
structure Sendable (aq : AdminqInfo) (call : AsqCall) : Prop where
  fits : call.buffSize ≤ aq.asqBufSize
  short : call.buffSize.toNat ≤ datSize
  direct : call.buff = none → call.desc.datalen = 0
  echo : call.buff ≠ none → AqOpcode.ofCode call.desc.opcode = some .echo
  apart : Apart (aq.asqBi aq.nextToUse.toNat) call.buffSize.toNat aq.slot AqDesc.size

/-- A call that the firmware answers, whatever it answered before. -/
theorem Sendable.answered {aq : AdminqInfo} {call : AsqCall} (h : Sendable aq call)
    (echobuf : Bool) :
    Answered echobuf (onRing aq call) := by
  unfold onRing AsqCall.onRing
  cases hbuff : call.buff with
  | none => exact .inl (h.direct hbuff)
  | some buff =>
    refine .inr ?_
    have hecho :
        AqOpcode.ofCode
          (withBuffer call.marked call.buffSize (aq.asqBi aq.nextToUse.toNat)).opcode =
        some .echo := h.echo (by rw [hbuff]; exact Option.some_ne_none buff)
    rw [echoes, hecho]
    exact Bool.or_true _

/-- What a call returns with: the answer to its command, and its buffer as it was. -/
def answerOf (aq : AdminqInfo) (call : AsqCall) : AsqResult where
  status := (expectedAnswer (onRing aq call)).retval
  desc := expectedAnswer (onRing aq call)
  buff := call.buff

section Call

variable {aq : AdminqInfo} {call : AsqCall} {m : Machine} {served : ℕ}

/-- The device fetches the command from the slot it was posted to. -/
theorem posted_headDesc (hstep : InStep aq m served) (h : Sendable aq call) :
    (posted aq call m).headSlot = aq.slot ∧ (posted aq call m).headDesc = onRing aq call := by
  have hslot : (posted aq call m).headSlot = aq.slot := hstep.headSlot
  exact ⟨hslot, by rw [Machine.headDesc, hslot]; exact command_eq_onRing aq m (.inr h.apart)⟩

/-- The buffer of the call is in the slot's own. -/
theorem posted_buffer (h : Sendable aq call) {buff : Region} (hbuff : call.buff = some buff) :
    (posted aq call m).ram.read (aq.asqBi aq.nextToUse.toNat) call.buffSize.toNat =
      buff.load call.buffSize.toNat := by
  have hapart {offset : ℕ} {bytes : List UInt8} (hend : offset + bytes.length ≤ AqDesc.size) :
      Apart (aq.asqBi aq.nextToUse.toNat) call.buffSize.toNat (aq.slot + UInt64.ofNat offset)
        bytes.length :=
    h.apart.inside hend
  have hlength : (buff.load call.buffSize.toNat).length = call.buffSize.toNat :=
    Region.load_length _ _
  have hsize := call.buffSize.toNat_lt
  unfold posted attached
  rw [hbuff]
  change (write (write (write _ (aq.slot + UInt64.ofNat 4) _) (aq.slot + UInt64.ofNat 24) _)
    (aq.slot + UInt64.ofNat 28) _).read _ _ = _
  rw [read_write_of_apart (hapart (by rw [leBytes_length]; decide)),
    read_write_of_apart (hapart (by rw [leBytes_length]; decide)),
    read_write_of_apart (hapart (by rw [leBytes_length]; decide))]
  have hback (space : AddressSpace) :
      (space.write (aq.asqBi aq.nextToUse.toNat) (buff.load call.buffSize.toNat)).read
      (aq.asqBi aq.nextToUse.toNat)
        call.buffSize.toNat = buff.load call.buffSize.toNat := by
    have hread := read_write space (aq.asqBi aq.nextToUse.toNat) (buff.load call.buffSize.toNat) (by
      rw [hlength]; omega)
    rwa [hlength] at hread
  exact hback _

/-- The driver collects the firmware's answer. -/
theorem collected_answered (hstep : InStep aq m served) (h : Sendable aq call) (val : UInt32) :
    collected call call.marked aq.slot (aq.asqBi aq.nextToUse.toNat)
      (machineAnswered (posted aq call m) val).ram =
      answerOf aq call := by
  obtain ⟨hslot, hdesc⟩ := posted_headDesc hstep h
  have hanswer : descAt (machineAnswered (posted aq call m) val).ram aq.slot =
      respond (onRing aq call) := by
    rw [machineAnswered_ram, hslot, hdesc, descAt_overwrite]
  have hbuff :
      (call.buff.map fun buff => buff.store ((machineAnswered (posted aq call m) val).ram.read
      (aq.asqBi aq.nextToUse.toNat) call.buffSize.toNat)) = call.buff := by
    cases hcall : call.buff with
    | none => rfl
    | some buff =>
      have hapart : Apart (aq.asqBi aq.nextToUse.toNat) call.buffSize.toNat aq.slot
          (respond (onRing aq call)).bytes.length := by
        rw [AqDesc.bytes_length]
        exact h.apart
      rw [machineAnswered_ram, hslot, hdesc, read_write_of_apart hapart, posted_buffer h hcall,
        Option.map_some, Region.store_load]
  rw [collected, hanswer, if_pos (respond_done _), hbuff, answerOf, respond_eq_expectedAnswer]

/-- The machine when a call has returned. -/
def machineCalled (aq : AdminqInfo) (call : AsqCall) (m : Machine) : Machine :=
  machineAnswered (posted aq call m) aq.bumped.nextToUse.toUInt32

variable (startXmit : Machine → Machine) {fs : Int} {link : Link}
  {history payloads : List (List UInt8)}

/-- A call is inside a session that ends with the firmware's answer. -/
theorem call_session (hstep : InStep aq m served) (h : Sendable aq call) (hfs : m.dev.fs = fs)
    (hconnected : fs ≠ invalidSocket) (hcarries : link.Carries ⟨history, []⟩ ⟨payloads, []⟩)
    (locals : Locals) :
    ∃ locals' history' payloads', InSession (devicePort fs) firmwarePort t0EntryRound
      (.pure ((answerOf aq call, aq.bumped), machineCalled aq call m)) (.pure (some locals'))
        history' payloads'
      ⟨e1000AsqSendCommand startXmit call aq m, t0EntryRound locals, link⟩ := by
  have hanswered : Answered locals.echobuf (posted aq call m).headDesc := by
    rw [(posted_headDesc hstep h).2]
    exact h.answered locals.echobuf
  obtain ⟨history', payloads', hsession⟩ :=
    tailWrite_session (m := posted aq call m) hfs hconnected hcarries
    aq.bumped.nextToUse.toUInt32 locals hanswered
  rw [e1000AsqSendCommand_eq startXmit aq m (UInt16.not_lt.mpr h.fits),
    ← collected_answered hstep h]
  exact ⟨_, history', payloads', hsession.bind _⟩

/-- A call keeps the driver and the device in step. -/
theorem machineCalled_inStep (call : AsqCall) (hstep : InStep aq m served) (hfs : m.dev.fs = fs)
    (hconnected : fs ≠ invalidSocket) :
    InStep aq.bumped (machineCalled aq call m) (served + 1) := by
  have hfollows :=
    tailWrite_follows (device_follows (m := (posted aq call m).fetched aq.bumped.nextToUse.toUInt32)
    hfs hconnected (posted aq call m).headDesc)
  rw [Interaction.pure_bind, settleAqCmd_answered (by simp), Interaction.pure_bind] at hfollows
  exact hstep.next ((e1000SetAtqTail_written _ _).returns hfollows.returns)

end Call

/-- Between two calls anything may happen to the machine that leaves the queue's registers and the
socket. -/
structure QueueKept (last m : Machine) : Prop where
  ring : m.dev.ring = last.dev.ring
  head : m.dev.macReg pfAtqh = last.dev.macReg pfAtqh
  tail : m.dev.macReg pfAtqt = last.dev.macReg pfAtqt
  socket : m.dev.fs = last.dev.fs

/-- The driver and the device stay in step. -/
theorem QueueKept.inStep {last m : Machine} (h : QueueKept last m) {aq : AdminqInfo} {served : ℕ}
    (hstep : InStep aq last served) : InStep aq m served :=
  ⟨hstep.entries, hstep.count, h.ring.trans hstep.ring, hstep.use, by rw [h.head]; exact hstep.head,
    by rw [h.tail]; exact hstep.tail⟩

/-- The runs in which the driver makes calls one after another on a ring that is programmed, over
one connection on which nothing is left. Each call stands with the driver's state when it was
made. -/
inductive DriverRun (startXmit : Machine → Machine) (fs : Int) :
    List (AdminqInfo × AsqCall) → Joined (AsqResult × AdminqInfo) → Prop
  | programmed {aq : AdminqInfo} {m : Machine} {served : ℕ} (hstep : InStep aq m served)
    (hfs : m.dev.fs = fs)
      {link : Link} {history payloads : List (List UInt8)}
      (hcarries : link.Carries ⟨history, []⟩ ⟨payloads, []⟩)
      (result : AsqResult) (locals : Locals) :
      DriverRun startXmit fs [] ⟨.pure ((result, aq), m), t0EntryRound locals, link⟩
  | call {calls : List (AdminqInfo × AsqCall)} {result : AsqResult} {aq : AdminqInfo}
      {last m : Machine}
      {right : Thread (Option Locals)} {link : Link}
      (run : DriverRun startXmit fs calls ⟨.pure ((result, aq), last), right, link⟩)
      (hkept : QueueKept last m)
      {call : AsqCall} (hsendable : Sendable aq call) :
      DriverRun startXmit fs (calls ++ [(aq, call)]) ⟨e1000AsqSendCommand startXmit call aq m,
        right, link⟩
  | step {calls : List (AdminqInfo × AsqCall)} {pair pair' : Joined (AsqResult × AdminqInfo)}
      (run : DriverRun startXmit fs calls pair) (hstep : LinkStep fs pair pair') :
      DriverRun startXmit fs calls pair'

section Run

variable {startXmit : Machine → Machine} {fs : Int} {calls : List (AdminqInfo × AsqCall)}
  {pair : Joined (AsqResult × AdminqInfo)}

/-- A run stays inside the session of its last call, which returns with the answer to its own
command. -/
theorem DriverRun.session (hconnected : fs ≠ invalidSocket)
    (run : DriverRun startXmit fs calls pair) :
    ∃ result aq m served locals history payloads,
      InSession (devicePort fs) firmwarePort t0EntryRound (.pure ((result, aq), m))
        (.pure (some locals)) history
        payloads pair ∧
      InStep aq m served ∧ m.dev.fs = fs ∧
      ∀ earlier before call, calls = earlier ++ [(before, call)] → result = answerOf before call ∧
        aq = before.bumped := by
  induction run with
  | @programmed aq m served hstep hfs link history payloads hcarries result locals =>
    refine ⟨result, aq, m, served, locals, history, payloads, ?_, hstep, hfs,
      fun earlier before call hcalls => ?_⟩
    · refine ⟨⟨history, []⟩, ⟨payloads, []⟩, [], [], .pure (some locals), hcarries, .done, trivial,
        .done _, .done _, rfl, ?_, ?_⟩
      · exact List.append_nil _
      · exact List.append_nil _
    · exact absurd hcalls.symm (List.append_ne_nil_of_right_ne_nil _ (List.cons_ne_nil _ _))
  | @call calls result aq last m right link run hkept call hsendable ih =>
    obtain ⟨result', aq', last', served, locals, history, payloads, hsession, hstep, hfs, -⟩ := ih
    obtain ⟨hreturned, hright, hcarries⟩ := hsession.left_returned rfl
    cases hreturned
    have hfs' : m.dev.fs = fs := hkept.socket.trans hfs
    have hstep' := hkept.inStep hstep
    obtain ⟨locals', history', payloads', hsession'⟩ :=
      call_session startXmit hstep' hsendable hfs' hconnected hcarries locals
    rw [show right = t0EntryRound locals from hright]
    refine ⟨_, _, _, served + 1, locals', history', payloads', hsession',
      machineCalled_inStep call hstep' hfs' hconnected, ?_, fun earlier before other hcalls => ?_⟩
    · exact (machineAnswered_fs _ _).trans hfs'
    · obtain ⟨-, hlast⟩ := List.append_inj' hcalls rfl
      cases hlast
      exact ⟨rfl, rfl⟩
  | step run hstep ih =>
    obtain ⟨result, aq, m, served, locals, history, payloads, hsession, hinStep, hfs, hresult⟩ := ih
    exact ⟨result, aq, m, served, locals, history, payloads, hsession.step trivial trivial hstep,
      hinStep, hfs, hresult⟩

/-- Whatever the order of steps, a call can return, and when it returns it has the firmware's answer
to its own command and its buffer as it was. -/
theorem driverRun_answers (earlier : List (AdminqInfo × AsqCall)) {aq : AdminqInfo} {call : AsqCall}
    (hconnected : fs ≠ invalidSocket)
    (run : DriverRun startXmit fs (earlier ++ [(aq, call)]) pair) :
    (∃ m right link, Relation.ReflTransGen (LinkStep fs) pair
        ⟨.pure ((answerOf aq call, aq.bumped), m), right, link⟩) ∧
      ∀ result aq' m, pair.left = .pure ((result, aq'), m) →
        result = answerOf aq call ∧ aq' = aq.bumped ∧ ∃ served, InStep aq' m served := by
  obtain ⟨result, aq', m, served, locals, history, payloads, hsession, hstep, -, hresult⟩ :=
    run.session hconnected
  obtain ⟨rfl, rfl⟩ := hresult earlier aq call rfl
  constructor
  · obtain ⟨link, -, hsteps⟩ := hsession.reaches
    exact ⟨m, _, link, hsteps⟩
  · intro result' aq' m' hreturned
    obtain ⟨hfinal, -, -⟩ := hsession.left_returned hreturned
    cases hfinal
    exact ⟨rfl, rfl, served, hstep⟩

end Run

/-- A driver with four slots at `0x1000` and a buffer of 512 bytes for each. -/
def fourSlots : AdminqInfo :=
  { numAsqEntries := 4, asqBufSize := 512, dma := 0x1000, count := 4, nextToUse := 0
    asqBi := fun slot => UInt64.ofNat (0x2000 + 512 * slot) }

/-- An echo of sixteen bytes. -/
def shortEcho : AsqCall := echoCall 0 (fun offset => UInt8.ofNat (offset + 1)) 16

/-- The machine with the ring programmed and a connection to the firmware. -/
def connectedMachine : Machine := withSocket (programmed fourSlots default) 3

/-- The echo can return, and when it does its status says so and the buffer is as it was. -/
theorem driverRun_answers_echoCall :
    (answerOf fourSlots shortEcho).status = rcOK ∧
      (∃ m right link, Relation.ReflTransGen (LinkStep 3)
        ⟨e1000AsqSendCommand id shortEcho fourSlots connectedMachine,
          t0EntryRound ⟨bareDesc 0, fun _ => 0, false⟩, Link.fresh⟩
        ⟨.pure ((answerOf fourSlots shortEcho, fourSlots.bumped), m), right, link⟩) ∧
      ∀ result aq' m, e1000AsqSendCommand id shortEcho fourSlots connectedMachine =
        .pure ((result, aq'), m) →
        result = answerOf fourSlots shortEcho ∧ aq' = fourSlots.bumped ∧
          ∃ served, InStep aq' m served := by
  have hstep : InStep fourSlots connectedMachine 0 :=
    ⟨by decide, rfl, programmed_ring fourSlots default, rfl, rfl, rfl⟩
  have hcarries : Link.fresh.Carries ⟨[], []⟩ ⟨[], []⟩ :=
    ⟨Connection.fresh_holds, Connection.fresh_holds⟩
  have hsendable : Sendable fourSlots shortEcho :=
    ⟨by decide, by decide, fun h => absurd h (Option.some_ne_none _), fun _ => rfl,
      by unfold Apart; decide⟩
  exact ⟨by decide, driverRun_answers [] (by decide)
    (.call (.programmed hstep rfl hcarries (answerOf fourSlots shortEcho)
      ⟨bareDesc 0, fun _ => 0, false⟩)
      ⟨rfl, rfl, rfl, rfl⟩ hsendable)⟩

end VirtualFirmware.System
