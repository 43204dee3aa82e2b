import Mathlib.Data.List.Induction
import VirtualFirmware.System.Exchange

/-!
# When the device and the firmware wait for each other

The device waits for a data frame whenever the response announces data. The firmware sends
one only when an echo has set `echobuf`, and clears `echobuf` when it does. A sequence of
commands is therefore answered throughout exactly when each command with data is an echo,
or follows an echo without data that no command with data came after.
-/

namespace VirtualFirmware.System

open Library Messaging Adminq Device Firmware

/-- A command whose data fits the firmware's buffer. -/
structure Command where
  desc : AqDesc
  fits : desc.datalen.toNat ≤ datSize

/-- The value of `echobuf` when the next command arrives. -/
def nextEchobuf (echobuf : Bool) (desc : AqDesc) : Bool :=
  if desc.datalen = 0 then echoes echobuf desc else false

/-- The value of `echobuf` after a sequence of commands. -/
def echobufAfter (commands : List Command) : Bool :=
  commands.foldl (fun echobuf command => nextEchobuf echobuf command.desc) false

/-- Every command of the sequence is answered in full. -/
def Answerable (commands : List Command) : Prop :=
  ∀ earlier command, earlier ++ [command] <+: commands →
    Answered (echobufAfter earlier) command.desc

/-- The payloads sent to the device: each response descriptor, and a data frame after it exactly
when the descriptor announces data. -/
inductive Answers : List Command → List (List UInt8) → Prop
  | nil : Answers [] []
  | direct {commands : List Command} {payloads : List (List UInt8)} {command : Command}
      (rest : Answers commands payloads) (hzero : (respond command.desc).datalen = 0) :
      Answers (commands ++ [command]) (payloads ++ [(respond command.desc).bytes])
  | indirect {commands : List Command} {payloads : List (List UInt8)} {command : Command}
      (rest : Answers commands payloads) (hpos : 0 < (respond command.desc).datalen)
      {dat : List UInt8} (hdat : dat.length = command.desc.datalen.toNat) :
      Answers (commands ++ [command]) (payloads ++ [(respond command.desc).bytes, dat])

/-- The device waits for a frame, the firmware waits for the next command, and nothing is on
its way to either. -/
def Deadlocked {A : Type} (fs : Int) (pair : Joined A) : Prop :=
  (∃ data length next, pair.left = .perform (.message fs (.recvdata data length)) next) ∧
    (∃ locals, pair.right = t0EntryRound locals) ∧
    pair.shared.toFirmware.incoming.unread = [] ∧ pair.shared.toDevice.incoming.unread = []

/-- The device issues these commands over the socket `fs`. -/
abbrev CommandRun (fs : Int) : List Command → Joined (Int × AqDesc) → Prop :=
  LinkRun fs (fun command => e1000SendAqCmd command.desc) fun _ _ => True

/-- The last command of a sequence acts on the `echobuf` that the others left. -/
@[simp] theorem echobufAfter_append (commands : List Command) (command : Command) :
    echobufAfter (commands ++ [command]) = nextEchobuf (echobufAfter commands) command.desc := by
  simp [echobufAfter]

/-- The first commands of an answerable sequence are answerable. -/
theorem Answerable.of_prefix {earlier commands : List Command} (h : Answerable commands)
    (hfront : earlier <+: commands) : Answerable earlier :=
  fun first command hfirst => h first command (hfirst.trans hfront)

/-- A round leaves `echobuf` as the next command finds it. -/
theorem localsAfter_echobuf (locals : Locals) (desc : AqDesc) (dat : List UInt8) :
    (localsAfter locals desc dat).echobuf = nextEchobuf locals.echobuf desc := by
  unfold localsAfter nextEchobuf
  split <;> rfl

/-- An answered command adds its answer to what the device has received. -/
theorem Answers.answered {commands : List Command} {payloads : List (List UInt8)}
    (h : Answers commands payloads) (command : Command) (m : Machine) :
    Answers (commands ++ [command])
      (payloads ++ receipts (deviceScript command.desc (commandData command.desc m))) := by
  unfold deviceScript
  split
  · rename_i hzero
    exact .direct h (by rw [respond_datalen, hzero])
  · rename_i hne
    refine .indirect h ?_ (commandData_length command.desc m)
    rw [respond_datalen]
    exact UInt16.pos_iff_ne_zero.mpr hne

/-- While every command is answered, the run stays inside the session of its last command. -/
theorem CommandRun.session {fs : Int} (hconnected : fs ≠ invalidSocket) {commands : List Command}
    {pair : Joined (Int × AqDesc)} (run : CommandRun fs commands pair) (h : Answerable commands) :
    ∃ value m locals history payloads,
      InSession (devicePort fs) firmwarePort t0EntryRound (.pure (value, m)) (.pure (some locals))
        history payloads pair ∧
      m.dev.fs = fs ∧ locals.echobuf = echobufAfter commands ∧ Answers commands payloads := by
  induction run with
  | @connected value m hfs locals hecho =>
    exact ⟨value, m, locals, [], [],
      ⟨Fifo.empty, Fifo.empty, [], [], .pure (some locals),
        ⟨Connection.fresh_holds, Connection.fresh_holds⟩, .done, trivial, .done _, .done _, rfl,
        rfl, rfl⟩, hfs, hecho, .nil⟩
  | @issue commands _ last m right link run hfs command _ ih =>
    obtain ⟨value, m', locals, history, payloads, hsession, hfs', hecho, hanswers⟩ :=
      ih (h.of_prefix (List.prefix_append _ _))
    obtain ⟨hfinal, hright, hcarries⟩ := hsession.left_returned rfl
    cases hfinal
    have hanswered := h commands command (List.prefix_refl _)
    rw [← hecho] at hanswered
    refine ⟨_, _, _, _, _, ⟨⟨history, []⟩, ⟨payloads, []⟩, _, _, _, hcarries,
      answered_completes hanswered (commandData command.desc m),
      firmwareScript_endsInSend _ _ _, device_follows (hfs.trans hfs') hconnected command.desc,
      firmware_follows locals command.desc (commandData_length _ m), hright, rfl, rfl⟩, ?_, ?_, ?_⟩
    · unfold machineAfter
      split <;> exact hfs.trans hfs'
    · rw [localsAfter_echobuf, hecho, echobufAfter_append]
    · exact hanswers.answered command m
  | step run hstep ih =>
    obtain ⟨value, m, locals, history, payloads, hsession, hfacts⟩ := ih h
    exact ⟨value, m, locals, history, payloads, hsession.step trivial trivial hstep, hfacts⟩

/-- Every answerable sequence of commands can be run to the end of its last command. -/
theorem CommandRun.exists_returned (fs : Int) (hconnected : fs ≠ invalidSocket)
    {commands : List Command} (h : Answerable commands) :
    ∃ value m locals link history payloads,
      CommandRun fs commands ⟨.pure (value, m), t0EntryRound locals, link⟩ ∧ m.dev.fs = fs ∧
        locals.echobuf = echobufAfter commands ∧
        link.Carries ⟨history, []⟩ ⟨payloads, []⟩ := by
  induction commands using List.reverseRecOn with
  | nil =>
    let m : Machine := { (default : Machine) with dev := { (default : E1000State) with fs } }
    have hfs : m.dev.fs = fs := rfl
    exact ⟨(0, AqDesc.ofBytes []), m, ⟨AqDesc.ofBytes [], fun _ => 0, false⟩, Link.fresh, [], [],
      .connected _ hfs rfl, hfs, rfl, Connection.fresh_holds, Connection.fresh_holds⟩
  | append_singleton commands command ih =>
    obtain ⟨value, m, locals, link, history, payloads, run, hfs, hecho, hcarries⟩ :=
      ih (h.of_prefix (List.prefix_append _ _))
    have hanswered := h commands command (List.prefix_refl _)
    rw [← hecho] at hanswered
    obtain ⟨link', hcarries', hsteps⟩ :=
      (answered_completes hanswered (commandData command.desc m)).reaches hcarries
        (device_follows hfs hconnected command.desc)
        (firmware_follows locals command.desc (commandData_length _ m))
    refine ⟨_, _, _, link', _, _, (run.issue rfl trivial).steps hsteps, ?_, ?_, hcarries'⟩
    · unfold machineAfter
      split <;> exact hfs
    · rw [localsAfter_echobuf, hecho, echobufAfter_append]

/-- After answered commands, a command that is not answered can end in a deadlock. -/
theorem CommandRun.exists_deadlocked (fs : Int) (hconnected : fs ≠ invalidSocket)
    {commands : List Command} (h : Answerable commands) {command : Command}
    (hnot : ¬ Answered (echobufAfter commands) command.desc) :
    ∃ pair, CommandRun fs (commands ++ [command]) pair ∧ Deadlocked fs pair := by
  obtain ⟨value, m, locals, link, history, payloads, run, hfs, hecho, hcarries⟩ :=
    exists_returned fs hconnected h
  rw [← hecho] at hnot
  have hne := (not_or.mp hnot).1
  obtain ⟨link', hcarries', hsteps⟩ :=
    (unanswered_completes hnot (commandData command.desc m)).reaches hcarries
      (device_follows_unanswered hfs hconnected hne)
      (firmware_follows locals command.desc (commandData_length _ m))
  have hpos : 0 < (respond command.desc).datalen := by
    rw [respond_datalen]
    exact UInt16.pos_iff_ne_zero.mpr hne
  have hwaits := recvAqBuffer_waits command.desc hpos m.allocated
  rw [show m.allocated.dev.fs = fs from hfs] at hwaits
  exact ⟨_, (run.issue rfl trivial).steps hsteps, hwaits, ⟨_, rfl⟩,
    hcarries'.1.unread_eq_nil_iff.mpr rfl, hcarries'.2.unread_eq_nil_iff.mpr rfl⟩

/-- A sequence that is not answerable has a first command that is not answered. -/
theorem exists_first_unanswered {commands : List Command} (h : ¬ Answerable commands) :
    ∃ earlier command, earlier ++ [command] <+: commands ∧ Answerable earlier ∧
      ¬ Answered (echobufAfter earlier) command.desc := by
  induction commands using List.reverseRecOn with
  | nil => exact absurd (fun earlier command hfront => by simp at hfront) h
  | append_singleton commands command ih =>
    by_cases hearlier : Answerable commands
    · refine ⟨commands, command, List.prefix_refl _, hearlier, fun hanswered => h ?_⟩
      intro first next hfront
      rcases List.prefix_concat_iff.mp hfront with heq | hfront
      · obtain ⟨rfl, hnext⟩ := List.append_inj' heq rfl
        cases hnext
        exact hanswered
      · exact hearlier first next hfront
    · obtain ⟨earlier, first, hfront, hfacts⟩ := ih hearlier
      exact ⟨earlier, first, hfront.trans (List.prefix_append _ _), hfacts⟩

/-- No run of commands over a fresh connection deadlocks, every finished command leaves both
directions empty, and a data frame follows a response exactly when the response announces
data, if and only if the sequence of commands is answerable. -/
theorem commands_answered_iff (fs : Int) (hconnected : fs ≠ invalidSocket)
    (commands : List Command) :
    (∀ issued pair, issued <+: commands → CommandRun fs issued pair →
      ¬ Deadlocked fs pair ∧ ∀ result, pair.left = .pure result →
        pair.shared.toFirmware.incoming.unread = [] ∧
          pair.shared.toDevice.incoming.unread = [] ∧
          ∃ payloads, Answers issued payloads ∧ pair.shared.toDevice.Holds ⟨payloads, []⟩) ↔
      Answerable commands := by
  constructor
  · intro hruns
    by_contra hnot
    obtain ⟨earlier, command, hfront, hearlier, hunanswered⟩ := exists_first_unanswered hnot
    obtain ⟨pair, run, hdeadlocked⟩ :=
      CommandRun.exists_deadlocked fs hconnected hearlier hunanswered
    exact (hruns _ pair hfront run).1 hdeadlocked
  · intro h issued pair hfront run
    obtain ⟨value, m, locals, history, payloads, hsession, -, -, hanswers⟩ :=
      CommandRun.session hconnected run (h.of_prefix hfront)
    constructor
    · rintro ⟨⟨data, length, next, hleft⟩, ⟨locals', hright⟩, htoFirmware, htoDevice⟩
      refine hsession.not_waiting ?_ ⟨_, next, hleft, trivial⟩ ⟨_, _, hright, trivial⟩
      intro toRight toLeft hcarries
      exact ⟨hcarries.1.unread_eq_nil_iff.mp htoFirmware,
        hcarries.2.unread_eq_nil_iff.mp htoDevice⟩
    · intro result hresult
      obtain ⟨-, -, hcarries⟩ := hsession.left_returned hresult
      exact ⟨hcarries.1.unread_eq_nil_iff.mpr rfl, hcarries.2.unread_eq_nil_iff.mpr rfl,
        payloads, hanswers, hcarries.2⟩

/-- A command of four data bytes with the given opcode. -/
def commandWithData (opcode : UInt16) : Command where
  desc := { flags := 0, opcode, datalen := 4, retval := 0, cookieHigh := 0, cookieLow := 0,
            param0 := 0, param1 := 0, addrHigh := 0, addrLow := 0 }
  fits := show 4 ≤ datSize by decide

/-- An echo of four bytes is answered on every path. -/
theorem echo_with_data_answered :
    Answerable [commandWithData 3] ∧
      ∀ issued pair, issued <+: [commandWithData 3] → CommandRun 3 issued pair →
        ¬ Deadlocked 3 pair ∧ ∀ result, pair.left = .pure result →
          pair.shared.toFirmware.incoming.unread = [] ∧
            pair.shared.toDevice.incoming.unread = [] ∧
            ∃ payloads, Answers issued payloads ∧
              pair.shared.toDevice.Holds ⟨payloads, []⟩ := by
  have hanswerable : Answerable [commandWithData 3] := by
    intro earlier command hfront
    obtain ⟨rest, hrest⟩ := hfront
    cases earlier with
    | nil =>
      cases hrest
      exact .inr (by decide)
    | cons first earlier => simp at hrest
  exact ⟨hanswerable, (commands_answered_iff 3 (by decide) [commandWithData 3]).mpr hanswerable⟩

/-- Asking for the version with four bytes of data leaves both sides waiting. -/
theorem get_version_with_data_deadlocks :
    ∃ pair, CommandRun 3 [commandWithData 1] pair ∧ Deadlocked 3 pair := by
  have hnone : Answerable [] := fun earlier command hfront => by simp at hfront
  have hnot : ¬ Answered (echobufAfter []) (commandWithData 1).desc := by
    rintro (hzero | hechoes)
    · exact absurd hzero (by decide)
    · exact absurd hechoes (by decide)
  exact CommandRun.exists_deadlocked 3 (by decide) hnone hnot

end VirtualFirmware.System
