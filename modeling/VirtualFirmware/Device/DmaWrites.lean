import VirtualFirmware.Device.Outcome
import VirtualFirmware.Device.QueueAccess

/-!
# What a tail write writes to guest memory

The outcome of the exchange with the firmware, together with the registers and memory before the
tail write, determines every range the handler writes: a buffer that is copied, and the
descriptor written back to its slot.
-/

namespace VirtualFirmware.Device

open Library Messaging Adminq

/-- The buffer that is copied, with its address: the echoed one, or the returned one. -/
def Outcome.copies (map : MemoryMap) (m : Machine) (desc : AqDesc) :
    Outcome → List (UInt64 × List UInt8)
  | .failed =>
    if AqOpcode.ofCode desc.opcode = some .echo ∧ desc.datalen ≠ 0 then
      [(desc.bufferAddr, (readPieces (map.pieces desc.bufferAddr desc.datalen.toNat) m).1)]
    else []
  | .answered response returned =>
    if response.datalen > 0 then [(response.bufferAddr, returned)] else []

/-- The register writes that writing ranges of guest memory causes. -/
def MemoryMap.registerWrites (map : MemoryMap) (writes : List (UInt64 × List UInt8)) :
    List (ℕ × UInt32) :=
  writes.flatMap fun write => accesses (map.pieces write.1 write.2.length) write.2

/-- The queue before a tail write. -/
def Machine.queueView (m : Machine) : QueueView := Mapped.view ⟨m, [], false⟩

/-- The queue after ranges of guest memory were written. -/
def MemoryMap.queueAfter (map : MemoryMap) (m : Machine) (writes : List (UInt64 × List UInt8)) :
    QueueView :=
  (map.registerWrites writes).foldl QueueView.access m.queueView

section Pieces

variable (map : MemoryMap)

/-- An access has at least one byte, and no more than there are. -/
theorem accessWidth_le {left : ℕ} (h : 0 < left) (addr : ℕ) :
    0 < accessWidth left addr ∧ accessWidth left addr ≤ left := by
  unfold accessWidth
  split
  · omega
  · split <;> omega

/-- The first piece of a range has at least one byte, and no more than the range. -/
theorem MemoryMap.piece_length (addr : UInt64) {len : ℕ} (h : 0 < len) :
    0 < (map.piece addr len).length ∧ (map.piece addr len).length ≤ len := by
  have hpage : 0 < pageSize - addr.toNat % pageSize := Nat.sub_pos_of_lt (Nat.mod_lt _ (by decide))
  have hl : 0 < min len (pageSize - addr.toNat % pageSize) := Nat.lt_min.mpr ⟨h, hpage⟩
  have hle : min len (pageSize - addr.toNat % pageSize) ≤ len := Nat.min_le_left _ _
  have hwidth (addr : ℕ) := accessWidth_le hl addr
  unfold MemoryMap.piece
  dsimp only
  split
  · exact ⟨(hwidth _).1, (hwidth _).2.trans hle⟩
  · split
    · exact ⟨hl, hle⟩
    · exact ⟨(hwidth _).1, (hwidth _).2.trans hle⟩

/-- Reading a range piece by piece returns all of its bytes. -/
theorem readPieces_length (addr : UInt64) (len : ℕ) (m : Machine) :
    (readPieces (map.pieces addr len) m).1.length = len := by
  have hloop (fuel : ℕ) : ∀ (addr : UInt64) (len : ℕ) (m : Machine), len ≤ fuel →
      (readPieces (map.piecesLoop fuel addr len) m).1.length = len := by
    induction fuel with
    | zero =>
      intro addr len m h
      exact (Nat.le_zero.mp h).symm
    | succ fuel ih =>
      intro addr len m h
      by_cases hlen : len = 0
      · rw [MemoryMap.piecesLoop, if_pos hlen, hlen]
        rfl
      · obtain ⟨hpos, hle⟩ := map.piece_length addr (Nat.pos_of_ne_zero hlen)
        rw [MemoryMap.piecesLoop, if_neg hlen]
        simp only [readPieces, List.length_append, Piece.read_length]
        rw [ih _ _ _ (by omega)]
        omega
  rw [MemoryMap.pieces]
  exact hloop len addr len m le_rfl

end Pieces

/-- The machine once the new tail is saved. -/
def Machine.tailSaved (m : Machine) (val : UInt32) : Machine :=
  { m with dev := m.dev.setMac pfAtqt val }

/-- The descriptor that a tail write fetches. -/
def MemoryMap.fetchedDesc (map : MemoryMap) (m : Machine) (val : UInt32) : AqDesc :=
  AqDesc.ofBytes (readPieces (map.pieces m.headSlot AqDesc.size) (m.tailSaved val)).1

section Fetch

variable (map : MemoryMap) (xmit : Transmit) (m : Machine) (val : UInt32)

/-- The tail does not place the head slot. -/
theorem tailSaved_headSlot : (m.tailSaved val).headSlot = m.headSlot := by
  have hring : (m.dev.setMac pfAtqt val).ring = m.dev.ring :=
    ring_setMac m.dev val (by decide) (by decide) (by decide)
  have hhead : (m.dev.setMac pfAtqt val).macReg pfAtqh = m.dev.macReg pfAtqh :=
    m.dev.setMac_of_ne val (by decide)
  rw [Machine.headSlot, Machine.tailSaved, hring, hhead, Machine.headSlot]

/-- Saving the tail leaves the other registers. -/
theorem tailSaved_sameQueue : SameQueue (m.tailSaved val) m := fun reg hreg =>
  m.dev.setMac_of_ne val fun heq => absurd (heq ▸ hreg) (by decide : pfAtqt ∉ viewed)

/-- The machine once the descriptor is read. -/
def MemoryMap.fetchedMachine (map : MemoryMap) (m : Machine) (val : UInt32) : Machine :=
  let read := (readPieces (map.pieces m.headSlot AqDesc.size) (m.tailSaved val)).2
  { read with trace := read.trace ++ [.fetched read.dev.ring m.headSlot (map.fetchedDesc m val)] }

/-- A tail write fetches a descriptor, carries it out and writes it back. -/
theorem mappedTail_eq (tail : UInt32 → MappedM Unit) (calls : List (Sigma DeviceReply))
    (cutOff : Bool) :
    (mappedPlatform map xmit tail).e1000SetAtqTail pfAtqt val ⟨m, calls, cutOff⟩ =
      ((mappedPlatform map xmit tail).executeAqCmd (map.fetchedDesc m val) >>=
        (mappedPlatform map xmit tail).finishAqCmd m.headSlot)
          ⟨map.fetchedMachine m val, calls, cutOff⟩ := by
  unfold MemoryMap.fetchedMachine MemoryMap.fetchedDesc
  rw [← tailSaved_headSlot m val]
  rfl

end Fetch

end VirtualFirmware.Device
