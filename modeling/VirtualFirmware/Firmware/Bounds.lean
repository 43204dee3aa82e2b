import VirtualFirmware.Firmware.Loop

/-!
# The buffers of the firmware's receive calls

Each messaging call of a round of `t_0_entry` is given a buffer with its size: the descriptor
variable, or the thread's data buffer of `FW_DAT_SIZE` bytes. The capacity of the second receive
call is the `datalen` the peer announced.
-/

namespace VirtualFirmware.Firmware

open Library Messaging Adminq

/-- What a sized call returns. -/
abbrev SizedReply (call : Sized MessageOp) : Type := MessageReply call.op

/-- Perform one sized call. -/
def sizedAsk (call : Sized MessageOp) :
    Interaction (Sized MessageOp) SizedReply (SizedReply call) :=
  Interaction.ask call

/-- The calls with the sizes of their buffers. -/
def sizedThread : ThreadPlatform (Interaction (Sized MessageOp) SizedReply) where
  senddata buffer length := sizedAsk ⟨.senddata buffer.contents length, buffer.size⟩
  recvdata buffer length := sizedAsk ⟨.recvdata buffer.contents length, buffer.size⟩

/-- A sized call on the thread's socket. -/
def Socket.sizedCall (call : Sized MessageOp) (s : Socket) :
    Option (MessageReply call.op × Socket) :=
  Socket.call call.op s

/-- Every receive call of the round stays inside the buffer it is given. -/
def RoundContained (w : LoopState) : Prop :=
  (sizedThread.t0EntryRound w.locals).EveryCall Socket.sizedCall Contained w.socket

/-- The descriptor that the round receives, if it receives one, announces no more data than the
thread's buffer holds. -/
def CommandFits (w : LoopState) : Prop :=
  ∀ received incoming, Messaging.recvdata w.locals.desc.toRegion (UInt16.ofNat AqDesc.size)
      w.socket.incoming = some (received, incoming) →
    received.rc ≠ -1 → (AqDesc.ofRegion received.data).datalen.toNat ≤ datSize

section Calls

variable {A : Type} {s : Socket}

/-- A send returns and is no receive call. -/
theorem sizedSend_contained {buffer : Buffer} {length : UInt16}
    {next : Sent → Interaction (Sized MessageOp) SizedReply A}
    (h : ∀ sent s', (next sent).EveryCall Socket.sizedCall Contained s') :
    (sizedThread.senddata buffer length >>= next).EveryCall Socket.sizedCall Contained s := by
  have hcall : Socket.sizedCall ⟨.senddata buffer.contents length, buffer.size⟩ s = some (_, _) :=
    rfl
  exact (Interaction.everyCall_ask hcall next).mpr ⟨trivial, h _ _⟩

/-- A receive stays inside its buffer exactly if it is told no more room, and then so has the rest
of the round to do if the receive returns. -/
theorem sizedRecv_contained_iff {buffer : Buffer} {length : UInt16}
    {next : Received → Interaction (Sized MessageOp) SizedReply A} :
    (sizedThread.recvdata buffer length >>= next).EveryCall Socket.sizedCall Contained s ↔
      length.toNat ≤ buffer.size ∧
        ∀ received incoming, Messaging.recvdata buffer.contents length s.incoming =
          some (received, incoming) →
          (next received).EveryCall Socket.sizedCall Contained { s with incoming } := by
  cases hcall : Messaging.recvdata buffer.contents length s.incoming with
  | none =>
    have hnone : Socket.sizedCall ⟨.recvdata buffer.contents length, buffer.size⟩ s = none := by
      simp only [Socket.sizedCall, Socket.call, hcall, Option.map_none]
    refine (Interaction.everyCall_ask_of_none hnone next).trans ?_
    simp [Contained]
  | some result =>
    obtain ⟨received, incoming⟩ := result
    have hsome : Socket.sizedCall ⟨.recvdata buffer.contents length, buffer.size⟩ s =
        some (received, { s with incoming }) := by
      simp only [Socket.sizedCall, Socket.call, hcall, Option.map_some]
    refine (Interaction.everyCall_ask hsome next).trans ?_
    constructor
    · rintro ⟨hcontained, hnext⟩
      refine ⟨hcontained.1, ?_⟩
      rintro _ _ ⟨⟩
      exact hnext
    · rintro ⟨hroom, hnext⟩
      exact ⟨recvdata_contained hroom hcall, hnext _ _ rfl⟩

end Calls

/-- Sending involves no receive call. -/
theorem sendBuffer_contained (locals : Locals) (datLength : UInt16) (s : Socket) :
    (sizedThread.sendBuffer locals datLength).EveryCall Socket.sizedCall Contained s := by
  unfold ThreadPlatform.sendBuffer
  split
  · refine sizedSend_contained fun sent s' => ?_
    split <;> exact trivial
  · exact trivial

/-- Answering a command involves no receive call. -/
theorem answer_contained (locals : Locals) (msgLength datLength : UInt16) (s : Socket) :
    (sizedThread.answer locals msgLength datLength).EveryCall Socket.sizedCall Contained s := by
  refine sizedSend_contained fun sent s' => ?_
  split
  · exact trivial
  · exact sendBuffer_contained _ _ _

/-- The data is received inside the thread's buffer exactly if no more is announced. -/
theorem recvBuffer_contained_iff (locals : Locals) (msgLength : UInt16) (s : Socket) :
    (sizedThread.recvBuffer locals msgLength).EveryCall Socket.sizedCall Contained s ↔
      locals.desc.datalen.toNat ≤ datSize := by
  unfold ThreadPlatform.recvBuffer
  by_cases hzero : locals.desc.datalen = 0
  · rw [if_neg (not_not.mpr hzero), hzero]
    exact iff_of_true (answer_contained _ _ _ _) (Nat.zero_le _)
  · rw [if_pos hzero, sizedRecv_contained_iff]
    exact ⟨And.left, fun hroom => ⟨hroom, fun _ _ _ => answer_contained _ _ _ _⟩⟩

/-- The receive calls of a round stay inside their buffers exactly if the command fits. -/
theorem roundContained_iff (w : LoopState) : RoundContained w ↔ CommandFits w := by
  unfold RoundContained CommandFits ThreadPlatform.t0EntryRound
  rw [sizedRecv_contained_iff]
  constructor
  · rintro ⟨-, hnext⟩ received incoming hcall hrc
    have hrest := hnext received incoming hcall
    rw [if_neg hrc] at hrest
    exact (recvBuffer_contained_iff _ _ _).mp hrest
  · intro hfits
    refine ⟨(by decide : (UInt16.ofNat AqDesc.size).toNat ≤ AqDesc.size), ?_⟩
    intro received incoming hcall
    split
    · exact trivial
    · exact (recvBuffer_contained_iff _ _ _).mpr (hfits received incoming hcall ‹_›)

end VirtualFirmware.Firmware
