import VirtualFirmware.Device.Effects
import VirtualFirmware.Device.QueueAccess
import VirtualFirmware.Device.TailWrite
import VirtualFirmware.Library.Events
import VirtualFirmware.Network.ReceiveRing

/-!
# The card as a whole

The guest reads and writes registers, packets arrive, and the link goes up and down. A write to a
register of the transmit queue runs the transmit path, and one to the tail of the admin queue
exchanges a command with the firmware, whose replies come from outside. These are all the ways in
which the state of the card changes between two resets.
-/

namespace VirtualFirmware.Network

open Library Device

/-- The card with another machine. -/
def Nic.withMachine (n : Nic) (m : Machine) : Nic := { n with toMachine := m }

/-- `e1000_mmio_writel` with the transmit path in place. -/
def cardWrite (fuel addr : ℕ) (val : UInt32) (n : Nic) :
    Except Stop (Interaction DeviceOp DeviceReply Nic) :=
  match writeopOf (regIndex addr) with
  | none => .ok (.pure n)
  | some (.device handler) => .ok (.pure (n.mapDev fun s => handler s (regIndex addr) val))
  | some .setTctl => (setTctl fuel (regIndex addr) val n).map .pure
  | some .e1000SetAtqTail =>
    .ok (e1000SetAtqTail (regIndex addr) val n.toMachine >>= fun result =>
      .pure (n.withMachine result.2))

/-- The transmit path as a change of the machine, as far as it returns. -/
def transmitOf (fuel : ℕ) (n : Nic) (m : Machine) : Machine :=
  match startXmit fuel (n.withMachine m) with
  | .ok n' => n'.toMachine
  | .error _ => m

/-- With the transmit path in the place that was left open for it, the transmit handler does to the
machine what the card does. -/
theorem setTctl_machine {fuel index : ℕ} {val : UInt32} {n n' : Nic}
    (h : setTctl fuel index val n = .ok n') :
    Device.setTctl (transmitOf fuel n) index val n.toMachine = .pure ((), n'.toMachine) := by
  change Interaction.pure ((), match setTctl fuel index val n with
    | .ok n' => n'.toMachine
    | .error _ => _) = _
  rw [h]

/-- A write to the card that returns is `e1000_mmio_writel` on the machine. -/
theorem cardWrite_machine {fuel addr : ℕ} {val : UInt32} {n : Nic}
    {program : Interaction DeviceOp DeviceReply Nic} (h : cardWrite fuel addr val n = .ok program) :
    e1000MmioWritel (transmitOf fuel n) addr val n.toMachine =
      program >>= fun n' => .pure ((), n'.toMachine) := by
  unfold cardWrite at h
  unfold e1000MmioWritel
  split at h
  · rename_i hop
    cases h
    rw [hop]
    rfl
  · rename_i handler hop
    cases h
    rw [hop]
    rfl
  · rename_i hop
    rw [hop]
    cases hxmit : setTctl fuel (regIndex addr) val n with
    | error e =>
      rw [hxmit] at h
      cases h
    | ok n' =>
      rw [hxmit] at h
      cases h
      exact setTctl_machine hxmit
  · rename_i hop
    cases h
    rw [hop, Interaction.bind_assoc]
    exact (Interaction.bind_pure _).symm

/-- What reaches the card: a register is written or read, a packet arrives and is stored with some
size or not at all, or the link goes down or up. -/
inductive CardEvent where
  | write (addr : ℕ) (val : UInt32)
  | read (addr : ℕ) (value : UInt32)
  | packet (buf : List UInt8) (stored : Option ℕ)
  | link (down : Bool)
deriving DecidableEq, Repr

/-- The event reads or writes a register. -/
def CardEvent.AtReg (reg : MacReg) : CardEvent → Prop
  | .write addr _ => regIndex addr = reg.index
  | .read addr _ => regIndex addr = reg.index
  | .packet _ _ => False
  | .link _ => False

/-- The size with which a packet was stored; a packet that the filter refuses has a size as well. -/
def storedSize (n : Nic) (buf : List UInt8) (size : Option ℕ) : Option ℕ :=
  if receiveFilter n.dev (padded buf) then size else none

/-- What an event does to the card. -/
inductive CardStep (fuel : ℕ) (n : Nic) : CardEvent → Nic → Prop
  | write {addr : ℕ} {val : UInt32} {program : Interaction DeviceOp DeviceReply Nic} {n' : Nic}
      (h : cardWrite fuel addr val n = .ok program) (hreturns : program.Returns n') :
      CardStep fuel n (.write addr val) n'
  | read (addr : ℕ) :
      CardStep fuel n (.read addr (e1000MmioReadl addr n.dev).1) (n.mapDev fun s =>
        (e1000MmioReadl addr s).2)
  | packet {buf : List UInt8} {n' : Nic} {size : Option ℕ}
      (h : e1000Receive fuel buf n = .ok (n', size)) :
      CardStep fuel n (.packet buf (storedSize n buf size)) n'
  | link (down : Bool) : CardStep fuel n (.link down) (n.mapDev (e1000SetLinkStatus down))

/-- The events lead from one state of the card to another. -/
abbrev CardRun (fuel : ℕ) : Nic → List CardEvent → Nic → Prop := EventRun (CardStep fuel)

/-- What a write does: nothing, a change of the device alone, work of the transmit path after its
registers were set, or an exchange with the firmware. -/
inductive CardWritten (index : ℕ) (val : UInt32) (n : Nic) : Nic → Prop
  | ignored : CardWritten index val n n
  | effect {s : E1000State} (h : WriteEffect index n.dev s) :
      CardWritten index val n (n.mapDev fun _ => s)
  | transmit {tail : UInt32} {n' : Nic} (hindex : index = MacReg.tctl.index ∨
      index = MacReg.tdt.index)
      (h : n' = (n.mapDev (·.setMac index val)).setReg .tdt tail ∨
        ∃ m causes, RingWork ((n.mapDev (·.setMac index val)).setReg .tdt tail) m ∧
          n' = m.mapDev (setIcs · 0 causes)) : CardWritten index val n n'
  | exchange (hindex : index = pfAtqt) {m : Machine} (h : TailWritten n.toMachine val m) :
      CardWritten index val n (n.withMachine m)

/-- The transmit handler serves two registers. -/
theorem writeopOf_setTctl {index : ℕ} (h : writeopOf index = some .setTctl) :
    index = MacReg.tctl.index ∨ index = MacReg.tdt.index := by
  by_contra hother
  obtain ⟨htctl, htdt⟩ := not_or.mp hother
  have htail : index ≠ pfAtqt := by
    rintro rfl
    cases h
  obtain ⟨handler, hdevice⟩ := writeopOf_device h htctl htdt htail
  cases hdevice

/-- The ways in which a write returns: nothing is done, the handler acts on the device alone, the
transmit path runs, or a command is exchanged. -/
theorem cardWrite_cases {fuel addr : ℕ} {val : UInt32} {n n' : Nic}
    {program : Interaction DeviceOp DeviceReply Nic} (h : cardWrite fuel addr val n = .ok program)
    (hreturns : program.Returns n') :
    n' = n ∨
      (∃ handler, writeopOf (regIndex addr) = some (.device handler) ∧
        n' = n.mapDev fun s => handler s (regIndex addr) val) ∨
      writeopOf (regIndex addr) = some .setTctl ∧ setTctl fuel (regIndex addr) val n = .ok n' ∨
      regIndex addr = pfAtqt ∧ ∃ m, TailWritten n.toMachine val m ∧ n' = n.withMachine m := by
  unfold cardWrite at h
  split at h
  · cases h
    cases hreturns
    exact .inl rfl
  · rename_i handler hop
    cases h
    cases hreturns
    exact .inr (.inl ⟨handler, hop, rfl⟩)
  · rename_i hop
    cases hxmit : setTctl fuel (regIndex addr) val n with
    | error e =>
      rw [hxmit] at h
      cases h
    | ok m =>
      rw [hxmit] at h
      cases h
      cases hreturns
      exact .inr (.inr (.inl ⟨hop, rfl⟩))
  · rename_i hop
    cases h
    obtain ⟨result, hresult, hlast⟩ := Interaction.returns_bind hreturns
    cases hlast
    have hindex := writeopOf_tail hop
    rw [hindex] at hresult
    exact .inr (.inr
      (.inr ⟨hindex, result.2, (e1000SetAtqTail_written val n.toMachine).returns hresult, rfl⟩))

/-- A write to a register whose handler acts on the device alone. -/
theorem cardWrite_device {fuel addr : ℕ} {val : UInt32} {n n' : Nic}
    {handler : E1000State → ℕ → UInt32 → E1000State}
    (hop : writeopOf (regIndex addr) = some (.device handler))
    {program : Interaction DeviceOp DeviceReply Nic} (h : cardWrite fuel addr val n = .ok program)
    (hreturns : program.Returns n') : n' = n.mapDev fun s => handler s (regIndex addr) val := by
  unfold cardWrite at h
  rw [hop] at h
  cases h
  cases hreturns
  rfl

/-- A write that returns has one of the effects in `CardWritten`. -/
theorem cardWrite_written {fuel addr : ℕ} {val : UInt32} {n n' : Nic}
    {program : Interaction DeviceOp DeviceReply Nic} (h : cardWrite fuel addr val n = .ok program)
    (hreturns : program.Returns n') : CardWritten (regIndex addr) val n n' := by
  rcases cardWrite_cases h hreturns with
      rfl | ⟨handler, hop, rfl⟩ | ⟨hop, hxmit⟩ | ⟨hindex, m, hwritten, rfl⟩
  · exact .ignored
  · exact .effect (writeopOf_effect hop n.dev val)
  · exact .transmit (writeopOf_setTctl hop) (startXmit_work fuel _ _ hxmit)
  · exact .exchange hindex hwritten

end VirtualFirmware.Network
