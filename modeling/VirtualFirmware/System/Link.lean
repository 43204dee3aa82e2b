import VirtualFirmware.Device.AtqTail
import VirtualFirmware.Firmware.Thread
import VirtualFirmware.Library.Duplex

/-!
# The device and the firmware on one connection

The device and the firmware's thread are two programs that share one connected socket: a
stream in each direction, on which every send is accepted whole and everything sent has
arrived. Their socket calls interleave in any order.
-/

namespace VirtualFirmware.System

open Library Messaging Adminq Device Firmware

/-- The two directions of the socket between the device and the firmware. -/
structure Link where
  toFirmware : Connection
  toDevice : Connection

/-- A connection on which nothing was sent yet. -/
def Link.fresh : Link := ⟨Connection.fresh, Connection.fresh⟩

/-- The payloads each direction has handed over and still holds. -/
def Link.Carries (link : Link) (toFirmware toDevice : Fifo (List UInt8)) : Prop :=
  link.toFirmware.Holds toFirmware ∧ link.toDevice.Holds toDevice

/-- The firmware closes its end when the device does, and no second firmware can be found. -/
def deviceHandle (fs : Int) : (op : DeviceOp) → Link → DeviceReply op → Link → Prop
  | .locate, link, reply, link' => reply = invalidSocket ∧ link' = link
  | .close _, link, _, link' => link' = { link with
      toFirmware := { link.toFirmware with
        incoming := { link.toFirmware.incoming with closed := true } } }
  | .message socket op, link, reply, link' => socket = fs ∧
      op.handle link.toFirmware link.toDevice reply link'.toFirmware link'.toDevice

/-- The device's end of the link, which it knows as the socket `fs`. -/
def devicePort (fs : Int) : Port DeviceOp DeviceReply (List UInt8) Link Link.Carries where
  handle := deviceHandle fs
  sends
    | .message socket op, payload, reply => socket = fs ∧ op.sends payload reply
    | .locate, _, _ => False
    | .close _, _, _ => False
  receives
    | .message socket op, payload, reply => socket = fs ∧ op.receives payload reply
    | .locate, _, _ => False
    | .close _, _, _ => False
  waits
    | .message _ op => op.waits
    | .locate => False
    | .close _ => False
  receives_waits {op message reply} hop := by
    cases op with
    | locate => exact hop
    | close socket => exact hop
    | message socket op => exact MessageOp.receives_waits hop.2
  sends_not_waits {op message reply} hop := by
    cases op with
    | locate => exact id
    | close socket => exact id
    | message socket op => exact MessageOp.sends_not_waits hop.2
  handle_send {s s' outgoing incoming op message reply reply'} hcarries hop hhandle := by
    cases op with
    | locate => exact hop.elim
    | close socket => exact hop.elim
    | message socket op =>
      obtain ⟨hreply, hholds, hincoming⟩ := MessageOp.handle_send hcarries.1 hop.2 hhandle.2
      exact ⟨hreply, hholds, hincoming ▸ hcarries.2⟩
  send_handled {s outgoing incoming op message reply} hcarries hop := by
    cases op with
    | locate => exact hop.elim
    | close socket => exact hop.elim
    | message socket op =>
      obtain ⟨toFirmware, hhandle⟩ := MessageOp.send_handled hcarries.1 hop.2 s.toDevice
      exact ⟨{ s with toFirmware }, hop.1, hhandle⟩
  handle_recv {s s' outgoing taken waiting op message reply reply'} hcarries hop hhandle := by
    cases op with
    | locate => exact hop.elim
    | close socket => exact hop.elim
    | message socket op =>
      obtain ⟨hreply, hholds, houtgoing⟩ := MessageOp.handle_recv hcarries.2 hop.2 hhandle.2
      exact ⟨hreply, houtgoing ▸ hcarries.1, hholds⟩
  recv_handled {s outgoing taken waiting op message reply} hcarries hop := by
    cases op with
    | locate => exact hop.elim
    | close socket => exact hop.elim
    | message socket op =>
      obtain ⟨toDevice, hhandle⟩ := MessageOp.recv_handled hcarries.2 hop.2 s.toFirmware
      exact ⟨{ s with toDevice }, hop.1, hhandle⟩
  handle_wait {s s' outgoing taken op reply} hcarries hop hhandle := by
    cases op with
    | locate => exact hop
    | close socket => exact hop
    | message socket op => exact MessageOp.handle_wait hcarries.2 hop hhandle.2

/-- The firmware's end of the link. -/
def firmwarePort : Port MessageOp MessageReply (List UInt8) Link
    fun link outgoing incoming => link.Carries incoming outgoing where
  handle op link reply link' :=
    op.handle link.toDevice link.toFirmware reply link'.toDevice link'.toFirmware
  sends := MessageOp.sends
  receives := MessageOp.receives
  waits := MessageOp.waits
  receives_waits hop := MessageOp.receives_waits hop
  sends_not_waits hop := MessageOp.sends_not_waits hop
  handle_send hcarries hop hhandle := by
    obtain ⟨hreply, hholds, hincoming⟩ := MessageOp.handle_send hcarries.2 hop hhandle
    exact ⟨hreply, hincoming ▸ hcarries.1, hholds⟩
  send_handled {s outgoing incoming op message reply} hcarries hop := by
    obtain ⟨toDevice, hhandle⟩ := MessageOp.send_handled hcarries.2 hop s.toFirmware
    exact ⟨{ s with toDevice }, hhandle⟩
  handle_recv hcarries hop hhandle := by
    obtain ⟨hreply, hholds, houtgoing⟩ := MessageOp.handle_recv hcarries.1 hop hhandle
    exact ⟨hreply, hholds, houtgoing ▸ hcarries.2⟩
  recv_handled {s outgoing taken waiting op message reply} hcarries hop := by
    obtain ⟨toFirmware, hhandle⟩ := MessageOp.recv_handled hcarries.1 hop s.toDevice
    exact ⟨{ s with toFirmware }, hhandle⟩
  handle_wait hcarries hop hhandle := MessageOp.handle_wait hcarries.1 hop hhandle

/-- The device's program, the firmware's thread, and the link between them. -/
abbrev Joined (A : Type) := Pair DeviceOp DeviceReply
    (A × Machine) MessageOp MessageReply Locals Link

/-- One socket call by either side. -/
abbrev LinkStep {A : Type} (fs : Int) : Joined A → Joined A → Prop :=
  Step (devicePort fs) firmwarePort t0EntryRound

/-- The runs in which the device issues commands one after another over one connection. When
a command has returned, the guest may change its RAM and the registers before the next
one, as far as the next command admits; only the socket stays. -/
inductive LinkRun {C A : Type} (fs : Int) (program : C → DeviceM A) (admits : C → Machine → Prop) :
    List C → Joined A → Prop
  | connected (value : A) {m : Machine} (hfs : m.dev.fs = fs) {locals : Locals}
      (hecho : locals.echobuf = false) :
      LinkRun fs program admits [] ⟨.pure (value, m), t0EntryRound locals, Link.fresh⟩
  | issue {commands : List C} {value : A} {last m : Machine} {right : Thread (Option Locals)}
      {link : Link} (run : LinkRun fs program admits commands ⟨.pure (value, last), right, link⟩)
      (hfs : m.dev.fs = last.dev.fs) {command : C} (hadmits : admits command m) :
      LinkRun fs program admits (commands ++ [command]) ⟨program command m, right, link⟩
  | step {commands : List C} {pair pair' : Joined A}
      (run : LinkRun fs program admits commands pair) (hstep : LinkStep fs pair pair') :
      LinkRun fs program admits commands pair'

/-- Any number of steps continues a run. -/
theorem LinkRun.steps {C A : Type} {fs : Int} {program : C → DeviceM A}
    {admits : C → Machine → Prop} {commands : List C} {pair pair' : Joined A}
    (run : LinkRun fs program admits commands pair)
    (hsteps : Relation.ReflTransGen (LinkStep fs) pair pair') :
    LinkRun fs program admits commands pair' := by
  induction hsteps with
  | refl => exact run
  | tail _ hstep ih => exact ih.step hstep

end VirtualFirmware.System
