import VirtualFirmware.Firmware.Thread
import VirtualFirmware.Library.Calls
import VirtualFirmware.Messaging.Socket
import VirtualFirmware.Messaging.Stream

/-!
# The firmware's loop on its socket

The thread runs one round after another on the socket that `announce` returned. What the
peer writes, how it arrives and what becomes of the thread's own sends is part of the
socket's state, so a round is a function of the thread's variables and the socket. A round
may wait, go on with the next one, or leave the loop.
-/

namespace VirtualFirmware.Firmware

open Library Messaging Adminq

/-- The thread between two rounds of its loop. -/
structure LoopState where
  locals : Locals
  socket : Socket

/-- One round; the thread's variables are gone once the loop is left. -/
def LoopState.round (w : LoopState) : Option (Option Locals × Socket) :=
  (t0EntryRound w.locals).runWith Socket.call w.socket

/-- One round that does not leave the loop. -/
def Round (w w' : LoopState) : Prop := w.round = some (some w'.locals, w'.socket)

/-- The round leaves the loop. -/
def Leaves (w : LoopState) : Prop := ∃ s, w.round = some (none, s)

/-- The payloads the thread sends from here until it is back at the start of a round, has left
the loop, or waits for the peer. -/
def LoopState.replies (w : LoopState) : List (List UInt8) :=
  ((t0EntryRound w.locals).reached Socket.call w.socket).sent.drop w.socket.sent.length

/-- The states between rounds of a thread that starts with whatever its stack holds. -/
inductive Served : LoopState → Prop
  | enter {w : LoopState} (hecho : w.locals.echobuf = false) (hsent : w.socket.sent = []) : Served w
  | round {w w' : LoopState} (served : Served w) (h : Round w w') : Served w'

/-- A round has one outcome. -/
theorem Round.unique {w w₁ w₂ : LoopState} (h₁ : Round w w₁) (h₂ : Round w w₂) : w₁ = w₂ := by
  rw [Round, h₁, Option.some.injEq, Prod.mk.injEq, Option.some.injEq] at h₂
  obtain ⟨locals, socket⟩ := w₁
  obtain ⟨rfl, rfl⟩ := h₂
  rfl

/-- A round that leaves the loop does not go on. -/
theorem Leaves.not_round {w w' : LoopState} (h : Leaves w) : ¬ Round w w' := by
  obtain ⟨s, hleaves⟩ := h
  intro hround
  rw [Round, hleaves] at hround
  cases hround

section Calls

variable {A : Type} {s : Socket}

/-- A receive hands its result to the rest of the round. -/
theorem recvdata_runWith (data : Region) (length : UInt16) (next : Received → Thread A) :
    (recvdata data length >>= next).runWith Socket.call s =
      (Messaging.recvdata data length s.incoming).bind fun result =>
        (next result.1).runWith Socket.call { s with incoming := result.2 } :=
  Option.bind_map

/-- A send hands its result to the rest of the round. -/
theorem senddata_runWith (data : Region) (length : UInt16) (next : Sent → Thread A) :
    (senddata data length >>= next).runWith Socket.call s =
      (next (Messaging.senddata (s.pads 0) data length s.outgoing).1).runWith Socket.call
        (s.afterSend data length) := rfl

/-- A receive that returns hands its result to the rest of the round. -/
theorem recvdata_reached {data : Region} {length : UInt16} {next : Received → Thread A}
    {received : Received} {incoming : Incoming}
    (h : Messaging.recvdata data length s.incoming = some (received, incoming)) :
    (recvdata data length >>= next).reached Socket.call s =
      (next received).reached Socket.call { s with incoming } := by
  change Interaction.reached Socket.call (.perform (.recvdata data length) next) s = _
  simp only [Interaction.reached, Socket.call, h, Option.map_some]

/-- A receive that waits leaves the socket as it is. -/
theorem recvdata_reached_of_none {data : Region} {length : UInt16} {next : Received → Thread A}
    (h : Messaging.recvdata data length s.incoming = none) :
    (recvdata data length >>= next).reached Socket.call s = s := by
  change Interaction.reached Socket.call (.perform (.recvdata data length) next) s = _
  simp only [Interaction.reached, Socket.call, h, Option.map_none]

/-- A send that is accepted whole adds its bytes to what was sent. -/
theorem senddata_reached (hprompt : s.outgoing.Prompt) (data : Region) {length : UInt16}
    (hpos : 0 < length) (next : Sent → Thread A) :
    ∃ s' : Socket, (senddata data length >>= next).reached Socket.call s =
        (next { rc := length.toNat }).reached Socket.call s' ∧
      s'.outgoing.Prompt ∧ s'.incoming = s.incoming ∧
        s'.sent = s.sent ++ [data.load length.toNat] := by
  let posting : Posting := ⟨s.pads 0, data, length, hpos⟩
  have hlength : posting.message.length = length := posting.message_length
  have hbytes : posting.message.payload = data.load length.toNat := rfl
  have hsend := senddata_prompt hprompt (s.pads 0) data posting.message (by simp [hbytes])
  rw [hlength, hbytes, Region.load_length] at hsend
  refine ⟨s.afterSend data length, ?_, ?_, rfl, rfl⟩
  · change Interaction.reached Socket.call (.perform (.senddata data length) next) s = _
    simp only [Interaction.reached, Socket.call, hsend]
  · rw [Socket.afterSend, hsend]
    exact hprompt

end Calls

end VirtualFirmware.Firmware
