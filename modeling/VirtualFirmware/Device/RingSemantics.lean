import VirtualFirmware.Device.Outcome
import VirtualFirmware.Library.Ring

/-!
# Tail writes and the pending descriptors

A queue's tail register announces that every slot from the head up to the tail is pending.
The device takes one slot for each tail write and looks neither at the tail nor at the
enable bit. What it writes back is the firmware's answer as it came, and where the answer has a
return buffer it is copied to any address. So a tail write does what the announcement asks for
exactly when the queue is enabled, one descriptor is pending, and the answer, if there is one, is
marked done and does not reach into another slot.
-/

namespace VirtualFirmware.Device

open Library Messaging Adminq

/-- The enable bit of the queue is set. -/
def E1000State.AtqEnabled (dev : E1000State) : Prop :=
  dev.macReg pfAtqlen &&& atqEnableMask ≠ 0

instance (dev : E1000State) : Decidable dev.AtqEnabled := inferInstanceAs (Decidable (_ ≠ _))

/-- An access of the device to a slot of the ring. -/
inductive SlotAccess where
  | fetch (addr : UInt64)
  | writeBack (addr : UInt64)
deriving DecidableEq, Repr

/-- The slot accesses among the events of a trace. -/
def slotAccesses (events : List AtqEvent) : List SlotAccess :=
  events.filterMap fun event =>
    match event with
    | .fetched _ addr _ => some (.fetch addr)
    | .writtenBack _ addr _ => some (.writeBack addr)
    | _ => none

/-- The slots that are pending, in order; none while the queue is disabled. -/
def pendingSlots (m : Machine) (tail : UInt32) : List ℕ :=
  if m.dev.AtqEnabled then
    Ring.between m.dev.ring.ringLen.toNat (m.dev.macReg pfAtqh).toNat tail.toNat
  else []

/-- The address of a slot by its number. -/
def Machine.slotAddr (m : Machine) (index : ℕ) : UInt64 := m.dev.ring.slot (UInt32.ofNat index)

/-- Each pending slot is fetched and written back once, in order. -/
def pendingAccesses (m : Machine) (tail : UInt32) : List SlotAccess :=
  (pendingSlots m tail).flatMap fun index =>
    [.fetch (m.slotAddr index), .writeBack (m.slotAddr index)]

/-- What a tail write is to do: exactly the pending descriptors are processed, each once and in
order, and none while the queue is disabled. Afterwards each of their slots in guest RAM has the
done flag, the other slots of the ring are as they were, and the head is at the tail. -/
structure ProcessesPending (m : Machine) (tail : UInt32) (m' : Machine) : Prop where
  accesses : slotAccesses (m'.trace.drop m.trace.length) = pendingAccesses m tail
  done : ∀ index ∈ pendingSlots m tail,
    (AqDesc.ofBytes (m'.ram.read (m.slotAddr index) AqDesc.size)).Done
  others : ∀ index < m.dev.ring.ringLen.toNat, index ∉ pendingSlots m tail →
    m'.ram.read (m.slotAddr index) AqDesc.size = m.ram.read (m.slotAddr index) AqDesc.size
  head : m.dev.AtqEnabled → m'.dev.macReg pfAtqh = tail

/-- The firmware's answer, if there is one, has the done flag, and its return buffer leaves every
slot but the one at the head as it was. -/
def Outcome.Completes (m : Machine) : Outcome → Prop
  | .failed => True
  | .answered response returned => response.Done ∧
      ∀ index < m.dev.ring.ringLen.toNat, index ≠ (m.dev.macReg pfAtqh).toNat →
        (m.ram.write response.bufferAddr returned).read (m.slotAddr index) AqDesc.size =
          m.ram.read (m.slotAddr index) AqDesc.size

instance (m : Machine) (outcome : Outcome) : Decidable (outcome.Completes m) :=
  match outcome with
  | .failed => inferInstanceAs (Decidable True)
  | .answered _ _ => inferInstanceAs (Decidable (_ ∧ _))

/-- There are two accesses for each pending slot. -/
theorem pendingAccesses_length (m : Machine) (tail : UInt32) :
    (pendingAccesses m tail).length = 2 * (pendingSlots m tail).length := by
  rw [pendingAccesses]
  induction pendingSlots m tail with
  | nil => rfl
  | cons index rest ih =>
    rw [List.flatMap_cons, List.length_append, ih, List.length_cons, List.length_cons,
      List.length_cons, List.length_nil]
    omega

/-- The slot at the head, by its number. -/
theorem Machine.headSlot_eq (m : Machine) :
    m.headSlot = m.slotAddr (m.dev.macReg pfAtqh).toNat := by
  rw [Machine.slotAddr, UInt32.ofNat_toNat, Machine.headSlot]

/-- Different slots do not overlap. -/
theorem Machine.slotAddr_apart (m : Machine) {i j : ℕ} (hi : i < 2 ^ 32) (hj : j < 2 ^ 32)
    (hne : i ≠ j) : AddressSpace.Apart (m.slotAddr i) AqDesc.size (m.slotAddr j) AqDesc.size := by
  have hslot {i : ℕ} (hi : i < 2 ^ 32) :
      m.slotAddr i = recordAt AqDesc.size m.dev.ring.base i := by
    rw [Machine.slotAddr, RingRegs.slot_eq, UInt32.toNat_ofNat', Nat.mod_eq_of_lt hi]
  have hbound {i : ℕ} (hi : i < 2 ^ 32) : AqDesc.size * (i + 1) ≤ 2 ^ 63 := by
    unfold AqDesc.size
    omega
  rw [hslot hi, hslot hj]
  exact recordAt_apart _ (hbound hi) (hbound hj) hne

/-- The device's wrap test is the ring's. -/
theorem nextHead_toNat {head : UInt32} (ringLen : UInt16) (h : head.toNat + 1 < 2 ^ 32) :
    (nextHead head ringLen).toNat = Ring.next ringLen.toNat head.toNat := by
  have hsucc : (head + 1).toNat = head.toNat + 1 := by
    rw [UInt32.toNat_add, UInt32.toNat_one, Nat.mod_eq_of_lt h]
  have hle : head + 1 ≥ ringLen.toUInt32 ↔ head.toNat + 1 ≥ ringLen.toNat := by
    rw [ge_iff_le, UInt32.le_iff_toNat_le, hsucc, UInt16.toNat_toUInt32]
  unfold nextHead Ring.next
  by_cases hwrap : head.toNat + 1 ≥ ringLen.toNat
  · rw [if_pos (hle.mpr hwrap), if_pos hwrap]
    rfl
  · rw [if_neg (hle.not.mpr hwrap), if_neg hwrap, hsucc]

/-- A tail write fetches the slot at the head and writes it back, and does nothing else. -/
theorem TailWritten.slotAccesses {m m' : Machine} {tail : UInt32} (h : TailWritten m tail m') :
    slotAccesses (m'.trace.drop m.trace.length) = [.fetch m.headSlot, .writeBack m.headSlot] := by
  obtain ⟨desc, answers, htrace, hanswers⟩ := h.trace
  rw [htrace, List.drop_left]
  rcases hanswers with ⟨rfl, -⟩ | rfl <;> rfl

/-- The head after a tail write. -/
theorem TailWritten.head {m m' : Machine} {tail : UInt32} (h : TailWritten m tail m') :
    m'.dev.macReg pfAtqh = nextHead (m.dev.macReg pfAtqh) m.dev.ring.ringLen := by
  rw [h.dev, E1000State.withFs_macReg, E1000State.setMac_self]

/-- The tail after a tail write. -/
theorem TailWritten.tail {m m' : Machine} {tail : UInt32} (h : TailWritten m tail m') :
    m'.dev.macReg pfAtqt = tail := by
  rw [h.dev, E1000State.withFs_macReg, E1000State.setMac_of_ne _ _ (by decide),
    E1000State.setMac_self]

/-- A tail write leaves the ring where it is. -/
theorem TailWritten.ring {m m' : Machine} {tail : UInt32} (h : TailWritten m tail m') :
    m'.dev.ring = m.dev.ring := by
  rw [h.dev]
  change ((m.dev.setMac pfAtqt tail).setMac pfAtqh
    (nextHead (m.dev.macReg pfAtqh) m.dev.ring.ringLen)).ring = _
  rw [ring_setMac _ _ (by decide) (by decide) (by decide),
    ring_setMac _ _ (by decide) (by decide) (by decide)]

/-- Replies under which no exchange succeeds. -/
def refused : (op : DeviceOp) → DeviceReply op
  | .locate => invalidSocket
  | .close _ => ()
  | .message _ (.senddata _ _) => { rc := -1 }
  | .message _ (.recvdata data length) => { rc := -1, data, length }

/-- An exchange that is refused fails. -/
theorem e1000SendAqCmd_refused (desc : AqDesc) (m : Machine) :
    ((e1000SendAqCmd desc m).resolve refused).1.1 < 0 := by
  change ((if m.dev.fs = invalidSocket then _ else sendAqDesc desc : DeviceM _) m |>.resolve
    refused).1.1 < 0
  split
  · change (-1 : Int) < 0
    decide
  · change (-1 : Int) < 0
    decide

/-- A command whose exchange is refused gets no answer. -/
theorem executeAqCmd_refused (desc : AqDesc) (m : Machine) :
    ((executeAqCmd desc m).resolve refused).2.trace = m.trace := by
  have hexchanged := (e1000SendAqCmd_exchanged desc m).resolve refused
  rw [executeAqCmd_eq, Interaction.resolve_bind,
    settleAqCmd_failed (e1000SendAqCmd_refused desc m)]
  exact (machineProcessed_trace _ _).trans hexchanged.trace

/-- A tail write whose exchange is refused gets no answer. -/
theorem e1000SetAtqTail_refused (tail : UInt32) (m : Machine) {desc : AqDesc} :
    .answered desc ∉
      ((e1000SetAtqTail pfAtqt tail m).resolve refused).2.trace.drop m.trace.length := by
  rw [e1000SetAtqTail_eq, Interaction.resolve_bind]
  simp [Interaction.resolve, Machine.finished, executeAqCmd_refused, Machine.fetched]

/-- A tail write processes what is pending only if that is the slot at the head. -/
theorem TailWritten.pendingSlots_eq {m m' : Machine} {tail : UInt32} (h : TailWritten m tail m')
    (haccesses : Device.slotAccesses (m'.trace.drop m.trace.length) = pendingAccesses m tail) :
    m.dev.AtqEnabled ∧
      Ring.distance m.dev.ring.ringLen.toNat (m.dev.macReg pfAtqh).toNat tail.toNat = 1 := by
  have hlength := congrArg List.length haccesses
  rw [h.slotAccesses, pendingAccesses_length, pendingSlots] at hlength
  split_ifs at hlength with henabled
  rw [Ring.between_length] at hlength
  simp only [List.length_cons, List.length_nil] at hlength
  exact ⟨henabled, by omega⟩

section Run

variable {m : Machine} {tail : UInt32} {calls : List (Sigma DeviceReply)} {m' : Machine}
  (hram : m'.ram = ((Outcome.of calls).copied m.ram).write m.headSlot
    ((Outcome.of calls).writtenDesc m.headDesc).bytes)

include hram

/-- The slot at the head holds the descriptor that was written back. -/
theorem read_headSlot : AqDesc.ofBytes (m'.ram.read (m.slotAddr (m.dev.macReg pfAtqh).toNat)
    AqDesc.size) = (Outcome.of calls).writtenDesc m.headDesc := by
  rw [hram, ← Machine.headSlot_eq,
    ← AqDesc.bytes_length ((Outcome.of calls).writtenDesc m.headDesc),
      AddressSpace.read_write _ _ _ (by rw [AqDesc.bytes_length]; decide), AqDesc.ofBytes_bytes]

/-- The other slots are as the return buffer left them. -/
theorem read_otherSlot {index : ℕ} (hindex : index < m.dev.ring.ringLen.toNat)
    (hne : index ≠ (m.dev.macReg pfAtqh).toNat) :
    m'.ram.read (m.slotAddr index) AqDesc.size =
      ((Outcome.of calls).copied m.ram).read (m.slotAddr index) AqDesc.size := by
  have hlen := m.dev.ring.ringLen.toNat_lt
  rw [hram, Machine.headSlot_eq]
  refine AddressSpace.read_write_of_apart ?_ _
  rw [AqDesc.bytes_length]
  exact m.slotAddr_apart (by omega) (m.dev.macReg pfAtqh).toNat_lt hne

/-- With one descriptor pending, the slots are as they should be exactly if the outcome says so. -/
theorem completes_iff (hpending : pendingSlots m tail = [(m.dev.macReg pfAtqh).toNat]) :
    (Outcome.of calls).Completes m ↔
      (∀ index ∈ pendingSlots m tail,
        (AqDesc.ofBytes (m'.ram.read (m.slotAddr index) AqDesc.size)).Done) ∧
      ∀ index < m.dev.ring.ringLen.toNat, index ∉ pendingSlots m tail →
        m'.ram.read (m.slotAddr index) AqDesc.size =
          m.ram.read (m.slotAddr index) AqDesc.size := by
  have hhead := read_headSlot hram
  have hother {index : ℕ} (hindex : index < m.dev.ring.ringLen.toNat) hne :=
    read_otherSlot hram hindex hne
  rw [hpending]
  simp only [List.mem_singleton, forall_eq, hhead]
  cases houtcome : Outcome.of calls with
  | failed =>
    rw [houtcome] at hother
    exact iff_of_true trivial ⟨AqDesc.done_setDone _, fun index hindex hne => hother hindex hne⟩
  | answered response returned =>
    rw [houtcome] at hother
    refine and_congr_right fun _ => forall₃_congr fun index hindex hne => ?_
    rw [hother hindex hne]
    rfl

end Run

/-- A machine with the given ring length and head. -/
def machineWithRing (len head : UInt32) : Machine :=
  { (default : Machine) with
    dev := ((default : E1000State).setMac pfAtqlen len).setMac pfAtqh head }

/-- An echo of two bytes at 0x2000 stands in the last of the four slots at 0x1000. -/
def echoInLastSlot : Machine :=
  { machineWithRing 0x80000004 3 with
    dev := (machineWithRing 0x80000004 3).dev.setMac pfAtqbal 0x1000
    ram := (default : Machine).ram.write 0x1060
      { AqDesc.zero with opcode := 3, datalen := 2, addrLow := 0x2000 }.bytes }

/-- The firmware's answer to it. -/
def echoAnswer : AqDesc :=
  { AqDesc.zero with flags := flagDD, opcode := 3, datalen := 2, addrLow := 0x2000 }

/-- A firmware that returns the echo, with the done flag, and two bytes for the guest's buffer. -/
def echoing : (op : DeviceOp) → DeviceReply op
  | .locate => 3
  | .close _ => ()
  | .message _ (.senddata _ _) => { rc := 1 }
  | .message _ (.recvdata _ length) =>
    if length = UInt16.ofNat AqDesc.size then { rc := 0, data := echoAnswer.toRegion, length }
    else { rc := 0, data := Region.ofBytes [0xab, 0xcd], length }

end VirtualFirmware.Device
