import VirtualFirmware.Messaging.Outcomes
import VirtualFirmware.Messaging.Socket

/-!
# Calls and the size of the buffers they are given

A buffer is the memory behind a pointer together with the number of bytes that belong to it.
`recvdata` is told a capacity, and stores nothing beyond it; the store stays inside the buffer
if the capacity does.
-/

namespace VirtualFirmware.Messaging

open Library

/-- Memory behind a pointer, of which the first `size` bytes belong to the buffer. -/
structure Buffer where
  contents : Region
  size : ℕ

/-- The buffer after bytes were stored at its front. -/
def Buffer.store (buffer : Buffer) (bytes : List UInt8) : Buffer :=
  { buffer with contents := buffer.contents.store bytes }

/-- A call together with the size of the buffer it is given. -/
structure Sized (Op : Type) where
  op : Op
  size : ℕ

/-- A receive call is told no more room than its buffer has, and what it stores is inside. -/
def Contained : (call : Sized MessageOp) → Option (MessageReply call.op) → Prop
  | ⟨.senddata _ _, _⟩, _ => True
  | ⟨.recvdata data length, size⟩, reply => length.toNat ≤ size ∧
      ∀ received, reply = some received → ∀ offset, size ≤ offset →
        received.data offset = data offset

/-- `recvdata` stores nothing beyond the room it is told. -/
theorem recvdata_stores {data : Region} {length : UInt16} {s s' : Incoming} {received : Received}
    (h : recvdata data length s = some (received, s')) {offset : ℕ}
    (hoffset : length.toNat ≤ offset) :
    received.data offset = data offset := by
  by_cases hready : HeaderReady length s
  · rw [recvdata_of_ready hready, Option.map_eq_some_iff] at h
    obtain ⟨⟨⟨rc, payload⟩, final⟩, hrecv, hreply⟩ := h
    cases hreply
    have hle := Incoming.recv_length_le hrecv
    have hfits := UInt16.le_iff_toNat_le.mp hready.2.1
    rw [payloadReply_data]
    exact List.getD_eq_default _ _ (hle.trans (hfits.trans hoffset))
  · obtain ⟨hwaits, -⟩ | ⟨received', s'', hcall, -, hdata, -⟩ := recvdata_of_not_ready hready data
    · rw [hwaits] at h
      contradiction
    · rw [hcall] at h
      cases h
      rw [hdata]

/-- A receive that is told no more room than there is stays inside its buffer. -/
theorem recvdata_contained {data : Region} {length : UInt16} {size : ℕ}
    (hroom : length.toNat ≤ size) {s s' : Incoming} {received : Received}
    (h : recvdata data length s = some (received, s')) :
    Contained ⟨.recvdata data length, size⟩ (some received) := by
  refine ⟨hroom, ?_⟩
  intro reply hreply offset hoffset
  cases hreply
  exact recvdata_stores h (hroom.trans hoffset)

end VirtualFirmware.Messaging
