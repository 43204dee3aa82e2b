import VirtualFirmware.Driver.Commands
import VirtualFirmware.Library.Regions

/-!
# A command in its slot

The driver copies the marked descriptor of a call to its slot and, for a call with a buffer, copies
the buffer to the slot's own and overwrites the length and the address on the ring. The descriptor
that then stands in the slot is the call's, unless the slot's buffer overlaps the slot.
-/

namespace VirtualFirmware.Driver

open Library Adminq Device AddressSpace

/-- A descriptor with the length and the address of a buffer. -/
def withBuffer (desc : AqDesc) (datalen : UInt16) (dma : UInt64) : AqDesc :=
  { desc with datalen, addrHigh := (dma >>> 32).toUInt32, addrLow := (dma &&& 0xffffffff).toUInt32 }

/-- The descriptor of a call for a slot whose own buffer is at an address. -/
def AsqCall.onRing (call : AsqCall) (dma : UInt64) : AqDesc :=
  match call.buff with
  | none => call.marked
  | some _ => withBuffer call.marked call.buffSize dma

/-- The descriptor of a call for the next slot. -/
def onRing (aq : AdminqInfo) (call : AsqCall) : AqDesc := call.onRing (aq.asqBi aq.nextToUse.toNat)

/-- Copying the caller's buffer to a slot's own leaves the slot alone. -/
def AsqCall.Spares (call : AsqCall) (dma slot : UInt64) : Prop :=
  call.buff = none ∨ Apart dma call.buffSize.toNat slot AqDesc.size

/-- The halves of an address as the driver stores them. -/
theorem halves_toNat (dma : UInt64) :
    (dma >>> 32).toNat = (dma >>> 32).toUInt32.toNat ∧
      (dma &&& 0xffffffff).toNat = (dma &&& 0xffffffff).toUInt32.toNat := by
  have hlt := dma.toNat_lt
  have hmask : dma.toNat &&& 4294967295 = dma.toNat % 2 ^ 32 :=
    Nat.and_two_pow_sub_one_eq_mod dma.toNat 32
  simp only [UInt64.toNat_toUInt32, UInt64.toNat_shiftRight, UInt64.toNat_and,
    Nat.shiftRight_eq_div_pow, UInt64.reduceToNat, hmask, Nat.reduceMod, Nat.reducePow] at *
  omega

/-- Setting the buffer replaces the bytes of three fields. -/
theorem bytes_withBuffer (desc : AqDesc) (datalen : UInt16) (dma : UInt64) :
    (withBuffer desc datalen dma).bytes =
      splice (splice (splice desc.bytes 4 (leBytes 2 datalen.toNat)) 24
        (leBytes 4 (dma >>> 32).toNat)) 28
        (leBytes 4 (dma &&& 0xffffffff).toNat) := by
  rw [(halves_toNat dma).1, (halves_toNat dma).2]
  -- In the right-nested concatenation each replacement skips whole fields and then meets its own.
  simp only [AqDesc.bytes, withBuffer, List.append_assoc, splice_skip, splice_front, splice_whole,
    leBytes_length, Nat.reduceLeDiff, Nat.reduceSub]

section Command

variable (aq : AdminqInfo) (m : Machine)

/-- The command as it stands in its slot. -/
def command (call : AsqCall) (m : Machine) : AqDesc := descAt (posted aq call m).ram aq.slot

/-- A direct command stands in its slot as it was marked. -/
theorem command_direct {call : AsqCall} (h : call.buff = none) :
    command aq call m = call.marked := by
  have hram : (posted aq call m).ram = m.ram.write aq.slot call.marked.bytes := by
    rw [posted, h]
    rfl
  rw [command, hram, descAt_overwrite]

/-- A write to a part of the slot replaces that part. -/
theorem read_slot_write_inside (space : AddressSpace) {offset : ℕ} {bytes : List UInt8}
    (hend : offset + bytes.length ≤ AqDesc.size) :
    (space.write (aq.slot + UInt64.ofNat offset) bytes).read aq.slot AqDesc.size =
      splice (space.read aq.slot AqDesc.size) offset bytes :=
  read_write_inside space aq.slot hend (by decide)

/-- A command whose buffer spares the slot stands in its slot with the buffer's address. -/
theorem command_eq_onRing {call : AsqCall}
    (h : call.Spares (aq.asqBi aq.nextToUse.toNat) aq.slot) :
    command aq call m = onRing aq call := by
  cases hbuff : call.buff with
  | none => rw [command_direct aq m hbuff, onRing, AsqCall.onRing, hbuff]
  | some buff =>
    have hapart : Apart aq.slot AqDesc.size (aq.asqBi aq.nextToUse.toNat)
        (buff.load call.buffSize.toNat).length := by
      rw [Region.load_length]
      exact (h.resolve_left (by rw [hbuff]; exact Option.some_ne_none buff)).symm
    have hread : (m.ram.write aq.slot call.marked.bytes).read aq.slot AqDesc.size =
        call.marked.bytes := by
      rw [← AqDesc.bytes_length call.marked,
        read_write _ _ _ (by rw [AqDesc.bytes_length]; decide)]
    have honRing : onRing aq call =
        withBuffer call.marked call.buffSize (aq.asqBi aq.nextToUse.toNat) := by
      rw [onRing, AsqCall.onRing, hbuff]
    have hbytes : (posted aq call m).ram.read aq.slot AqDesc.size = (onRing aq call).bytes := by
      rw [honRing, bytes_withBuffer]
      unfold posted attached
      rw [hbuff]
      change (write (write (write _ (aq.slot + UInt64.ofNat 4) _) (aq.slot + UInt64.ofNat 24) _)
        (aq.slot + UInt64.ofNat 28) _).read aq.slot AqDesc.size = _
      rw [read_slot_write_inside aq _ (by rw [leBytes_length]; decide),
        read_slot_write_inside aq _ (by rw [leBytes_length]; decide),
        read_slot_write_inside aq _ (by rw [leBytes_length]; decide),
        read_write_of_apart hapart, hread]
    rw [command, descAt, hbytes, AqDesc.ofBytes_bytes]

end Command

end VirtualFirmware.Driver
