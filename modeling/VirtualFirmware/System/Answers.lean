import VirtualFirmware.System.TailExchange

/-!
# Each exchange answers its own command

Tail writes follow one another on one connection, with the guest free to change its RAM and
the ring's registers in between. No frame of an earlier command is left on the connection
when a tail write returns, so what a tail write puts into its slot is the firmware's answer
to the descriptor it fetched from there, and the rest of guest RAM is as it was.
-/

namespace VirtualFirmware.System

open Library Messaging Adminq Device Firmware

/-- A tail write: the machine it starts from, whose descriptor's data fits the firmware's
buffer, and the value written. -/
structure TailCommand where
  start : Machine
  val : UInt32
  fits : start.headDesc.datalen.toNat ≤ datSize

/-- The device performs these tail writes over the socket `fs`. -/
abbrev TailRun (fs : Int) : List TailCommand → Joined Unit → Prop :=
  LinkRun fs (fun command => e1000SetAtqTail pfAtqt command.val) fun command m => m = command.start

/-- The descriptor a command is to come back as: done, with the version if it asked for it, and
with an error if it is not known. -/
def expectedAnswer (desc : AqDesc) : AqDesc :=
  { desc with
    flags := desc.flags ||| flagDD
    retval := if AqOpcode.ofCode desc.opcode = none then rcENOSYS else desc.retval
    param0 := if AqOpcode.ofCode desc.opcode = some .getVersion then 0x00130034 else desc.param0
    param1 := if AqOpcode.ofCode desc.opcode = some .getVersion then 0x00af00fa else desc.param1 }

/-- The firmware answers as expected. -/
theorem respond_eq_expectedAnswer (desc : AqDesc) : respond desc = expectedAnswer desc := by
  unfold respond expectedAnswer
  cases AqOpcode.ofCode desc.opcode with
  | none => simp
  | some opcode =>
    cases opcode with
    | getVersion =>
      simp [Firmware.e1000AqGetVersion]
      decide
    | driverHeartbeat => simp
    | echo => simp

/-- A run stays inside the session of its last tail write, which returns, if at all, with the
answer to its own command. -/
theorem TailRun.session {fs : Int} (hconnected : fs ≠ invalidSocket) {commands : List TailCommand}
    {pair : Joined Unit} (run : TailRun fs commands pair) :
    ∃ final locals history payloads, Blocked (devicePort fs) final ∧
      InSession (devicePort fs) firmwarePort t0EntryRound final (.pure (some locals)) history
        payloads pair ∧
      ∀ value m, final = .pure (value, m) → m.dev.fs = fs ∧
        ∀ earlier command, commands = earlier ++ [command] →
          m = machineAnswered command.start command.val := by
  induction run with
  | @connected value m hfs locals hecho =>
    refine ⟨.pure (value, m), locals, [], [], trivial,
      ⟨Fifo.empty, Fifo.empty, [], [], .pure (some locals),
        ⟨Connection.fresh_holds, Connection.fresh_holds⟩, .done, trivial, .done _, .done _, rfl,
        rfl, rfl⟩, ?_⟩
    rintro _ _ ⟨⟩
    exact ⟨hfs, fun earlier command hcommands => by simp at hcommands⟩
  | @issue commands value last m right link run hfs command hadmits ih =>
    obtain ⟨final, locals, history, payloads, -, hsession, hfinal⟩ := ih
    obtain ⟨hreturned, hright, hcarries⟩ := hsession.left_returned rfl
    have hfs' : m.dev.fs = fs := hfs.trans (hfinal _ _ hreturned).1
    rw [show right = t0EntryRound locals from hright]
    by_cases hanswered : Answered locals.echobuf m.headDesc
    · obtain ⟨history', payloads', hsession'⟩ :=
        tailWrite_session hfs' hconnected hcarries command.val locals hanswered
      refine ⟨.pure ((), machineAnswered m command.val), _, history', payloads', trivial,
        hsession', ?_⟩
      rintro _ _ ⟨⟩
      refine ⟨(machineAnswered_fs m command.val).trans hfs', fun earlier first hcommands => ?_⟩
      obtain ⟨-, hfirst⟩ := List.append_inj' hcommands rfl
      cases hfirst
      rw [hadmits]
    · obtain ⟨op, next, history', payloads', hwaits, hsession'⟩ :=
        tailWrite_session_unanswered hfs' hconnected hcarries command.val locals hanswered
      exact ⟨.perform op next, _, history', payloads', hwaits, hsession',
        fun _ _ hnever => nomatch hnever⟩
  | step run hstep ih =>
    obtain ⟨final, locals, history, payloads, hblocked, hsession, hfinal⟩ := ih
    exact ⟨final, locals, history, payloads, hblocked, hsession.step hblocked trivial hstep, hfinal⟩

/-- In every run of tail writes on one connection, a tail write that has returned got an answer
from the firmware and left in its slot the expected answer to the descriptor it had fetched
there; no other byte of guest RAM changed. -/
theorem tailRun_answers_own_command {fs : Int} (hconnected : fs ≠ invalidSocket)
    {earlier : List TailCommand} {command : TailCommand} {m : Machine}
    {right : Thread (Option Locals)} {link : Link}
    (run : TailRun fs (earlier ++ [command]) ⟨.pure ((), m), right, link⟩) :
    .answered (expectedAnswer command.start.headDesc) ∈ m.trace.drop command.start.trace.length ∧
      AqDesc.ofBytes (m.ram.read command.start.headSlot AqDesc.size) =
        expectedAnswer command.start.headDesc ∧
      ∀ addr, AqDesc.size ≤ (addr - command.start.headSlot).toNat →
        m.ram addr = command.start.ram addr := by
  obtain ⟨final, locals, history, payloads, -, hsession, hfinal⟩ := run.session hconnected
  obtain ⟨hreturned, -, -⟩ := hsession.left_returned rfl
  obtain rfl := (hfinal _ _ hreturned).2 earlier command rfl
  rw [machineAnswered_ram, respond_eq_expectedAnswer]
  refine ⟨?_, ?_, fun addr houtside => ?_⟩
  · simp [machineAnswered_trace, respond_eq_expectedAnswer]
  · have hread := AddressSpace.read_write command.start.ram command.start.headSlot
      (expectedAnswer command.start.headDesc).bytes (by rw [AqDesc.bytes_length]; decide)
    rw [AqDesc.bytes_length] at hread
    rw [hread, AqDesc.ofBytes_bytes]
  · exact AddressSpace.write_of_le _ _ _ (by rwa [AqDesc.bytes_length])

/-- Once a tail write has returned, the next one can return, if its command is answered. -/
theorem TailRun.next_returns {fs : Int} (hconnected : fs ≠ invalidSocket)
    {commands : List TailCommand} {value : Unit} {last : Machine} {right : Thread (Option Locals)}
    {link : Link} (run : TailRun fs commands ⟨.pure (value, last), right, link⟩)
    (command : TailCommand) (hfs : command.start.dev.fs = fs)
    (hanswered : ∀ echobuf, Answered echobuf command.start.headDesc) :
    ∃ m right link, TailRun fs (commands ++ [command]) ⟨.pure ((), m), right, link⟩ := by
  obtain ⟨final, locals, history, payloads, -, hsession, hfinal⟩ := run.session hconnected
  obtain ⟨hreturned, hright, hcarries⟩ := hsession.left_returned rfl
  obtain rfl : right = t0EntryRound locals := hright
  obtain ⟨history', payloads', hsession'⟩ :=
    tailWrite_session hfs hconnected hcarries command.val locals (hanswered locals.echobuf)
  obtain ⟨link', -, hsteps⟩ := hsession'.reaches
  have hissued : TailRun fs (commands ++ [command])
      ⟨e1000SetAtqTail pfAtqt command.val command.start, t0EntryRound locals, link⟩ :=
    .issue run (hfs.trans (hfinal _ _ hreturned).1.symm) rfl
  exact ⟨_, _, link', hissued.steps hsteps⟩

/-- The first tail write of a connection, asking for the version. -/
def getVersionCommand : TailCommand where
  start := withSocket (machineWithDesc (bareDesc 1)) 3
  val := 1
  fits := by
    rw [show (withSocket (machineWithDesc (bareDesc 1)) 3).headDesc = bareDesc 1 from
      machineWithDesc_headDesc _]
    decide

/-- An echo of two bytes. -/
def echoDesc : AqDesc := { bareDesc 3 with datalen := 2, cookieLow := 7, addrLow := 0x2000 }

/-- The second tail write, for the echo. -/
def echoCommand : TailCommand where
  start := withSocket (machineWithDesc echoDesc) 3
  val := 1
  fits := by
    rw [show (withSocket (machineWithDesc echoDesc) 3).headDesc = echoDesc from
      machineWithDesc_headDesc _]
    decide

/-- The firmware's version is in the slot once the first tail write has returned, and the echo once
the second has. -/
theorem version_and_echo_answered :
    (∃ m right link, TailRun 3 ([] ++ [getVersionCommand]) ⟨.pure ((), m), right, link⟩ ∧
      AqDesc.ofBytes (m.ram.read getVersionCommand.start.headSlot AqDesc.size) =
        { bareDesc 1 with flags := 1, param0 := 0x00130034, param1 := 0x00af00fa }) ∧
      ∃ m right link, TailRun 3 ([getVersionCommand] ++ [echoCommand])
        ⟨.pure ((), m), right, link⟩ ∧
        AqDesc.ofBytes (m.ram.read echoCommand.start.headSlot AqDesc.size) =
          { echoDesc with flags := 1 } := by
  have hversion : getVersionCommand.start.headDesc = bareDesc 1 := machineWithDesc_headDesc _
  have hecho : echoCommand.start.headDesc = echoDesc := machineWithDesc_headDesc _
  have hfs : getVersionCommand.start.dev.fs = 3 := rfl
  have hstart : TailRun 3 [] ⟨.pure ((), getVersionCommand.start),
      t0EntryRound ⟨bareDesc 0, fun _ => 0, false⟩, Link.fresh⟩ := .connected () hfs rfl
  obtain ⟨m, right, link, hfirst⟩ := hstart.next_returns (by decide) getVersionCommand rfl
    fun _ => .inl (by rw [hversion]; rfl)
  obtain ⟨m', right', link', hsecond⟩ := hfirst.next_returns (by decide) echoCommand rfl
    fun echobuf => .inr (by rw [hecho, echoes]; exact Bool.or_true echobuf)
  refine ⟨⟨m, right, link, hfirst, ?_⟩, m', right', link', hsecond, ?_⟩
  · rw [(tailRun_answers_own_command (by decide) hfirst).2.1, hversion]
    decide
  · rw [(tailRun_answers_own_command (by decide) hsecond).2.1, hecho]
    decide

end VirtualFirmware.System
