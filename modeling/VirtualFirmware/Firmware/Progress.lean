import Mathlib.Logic.Relation
import VirtualFirmware.Firmware.Loop
import VirtualFirmware.Messaging.Outcomes

/-!
# Whether the firmware's loop ends

The peer has sent what it sends and closed the connection. The loop is left only when a send
fails. A round that finds its header ready takes it, so a run of such rounds ends; a round that
does not find it ready takes nothing and the loop goes on.
-/

namespace VirtualFirmware.Firmware

open Library Messaging Adminq Relation

/-- The bytes a peer has sent that the thread did not take yet. -/
def LoopState.unread (w : LoopState) : List UInt8 := w.socket.incoming.unread

/-- The round starts with the header of a message that may be a descriptor. -/
def LoopState.Ready (w : LoopState) : Prop :=
  HeaderReady (UInt16.ofNat AqDesc.size) w.socket.incoming

/-- The loop is left after finitely many rounds. -/
def Ends (w : LoopState) : Prop := ∃ w', ReflTransGen Round w w' ∧ Leaves w'

/-- The loop ends, and until then every round takes at least one byte of the stream. -/
structure Progress (w : LoopState) : Prop where
  ends : Ends w
  consumes : ∀ {w₁ w₂ : LoopState}, ReflTransGen Round w w₁ → Round w₁ w₂ →
    w₂.unread.length < w₁.unread.length

section Rounds

variable {s : Socket}

/-- Sending the buffer returns and takes nothing from the stream. -/
theorem sendBuffer_returns (locals : Locals) (datLength : UInt16) :
    ∃ result s', (sendBuffer locals datLength).runWith Socket.call s = some (result, s') ∧
      s'.incoming = s.incoming := by
  rw [sendBuffer_eq]
  split
  · rw [senddata_runWith]
    split <;> exact ⟨_, _, rfl, rfl⟩
  · exact ⟨_, _, rfl, rfl⟩

/-- Answering a command returns and takes nothing from the stream. -/
theorem answer_returns (locals : Locals) (msgLength datLength : UInt16) :
    ∃ result s', (answer locals msgLength datLength).runWith Socket.call s = some (result, s') ∧
      s'.incoming = s.incoming := by
  rw [answer_eq, senddata_runWith]
  split
  · exact ⟨_, _, rfl, rfl⟩
  · exact sendBuffer_returns _ _

/-- On a closed connection the rest of a round returns, and the stream does not grow. -/
theorem recvBuffer_returns (hclosed : s.incoming.closed = true) (locals : Locals)
    (msgLength : UInt16) :
    ∃ result s', (recvBuffer locals msgLength).runWith Socket.call s = some (result, s') ∧
      s'.incoming.closed = true ∧ s'.incoming.unread.length ≤ s.incoming.unread.length := by
  rw [recvBuffer_eq]
  by_cases hdatalen : locals.desc.datalen ≠ 0
  · obtain ⟨received, incoming, hcall, hclosed', hle, -⟩ :=
      recvdata_closed hclosed locals.buffer locals.desc.datalen
    rw [if_pos hdatalen, recvdata_runWith, hcall]
    obtain ⟨result, s', hanswer, hincoming⟩ := answer_returns (s := { s with incoming })
      { locals with buffer := received.data } msgLength received.length
    exact ⟨result, s', hanswer, by rw [hincoming, hclosed'], by rw [hincoming]; exact hle⟩
  · rw [if_neg hdatalen]
    obtain ⟨result, s', hanswer, hincoming⟩ :=
      answer_returns (s := s) locals msgLength locals.desc.datalen
    exact ⟨result, s', hanswer, by rw [hincoming, hclosed], by rw [hincoming]⟩

end Rounds

section Closed

variable {w : LoopState}

/-- On a closed connection a round that finds its header ready returns and takes the header. -/
theorem round_of_ready (hclosed : w.socket.incoming.closed = true) (hready : w.Ready) :
    ∃ result s', w.round = some (result, s') ∧ s'.incoming.closed = true ∧
      s'.incoming.unread.length < w.unread.length := by
  obtain ⟨received, incoming, hcall, hclosed', -, hless⟩ :=
    recvdata_closed hclosed w.locals.desc.toRegion (UInt16.ofNat AqDesc.size)
  have htaken := hless hready
  unfold LoopState.round
  rw [t0EntryRound_eq, recvdata_runWith, hcall]
  dsimp only [Option.bind_some]
  split
  · exact ⟨_, _, rfl, hclosed', htaken⟩
  · obtain ⟨result, s', hrest, hclosed'', hle⟩ :=
      recvBuffer_returns (s := { w.socket with incoming }) hclosed'
      { w.locals with desc := AqDesc.ofRegion received.data } received.length
    exact ⟨result, s', hrest, hclosed'', Nat.lt_of_le_of_lt hle htaken⟩

/-- On a closed connection a round that does not find its header ready takes nothing, and the loop
goes on. -/
theorem round_of_not_ready (hclosed : w.socket.incoming.closed = true) (hready : ¬ w.Ready) :
    ∃ w', Round w w' ∧ w'.unread = w.unread ∧ w'.socket.incoming.closed = true := by
  obtain ⟨-, -, hopen⟩ | ⟨received, incoming, hcall, hrc, -, hunread, hclosed'⟩ :=
    recvdata_of_not_ready hready w.locals.desc.toRegion
  · rw [hclosed] at hopen
    contradiction
  refine ⟨⟨{ w.locals with desc := AqDesc.ofRegion received.data }, { w.socket with incoming }⟩,
    ?_, hunread, hclosed'.trans hclosed⟩
  unfold Round LoopState.round
  rw [t0EntryRound_eq, recvdata_runWith, hcall]
  dsimp only [Option.bind_some]
  rw [if_pos hrc]
  rfl

/-- The connection stays closed. -/
theorem Round.closed {w' : LoopState} (h : Round w w') (hclosed : w.socket.incoming.closed = true) :
    w'.socket.incoming.closed = true := by
  by_cases hready : w.Ready
  · obtain ⟨result, s', hround, hclosed', -⟩ := round_of_ready hclosed hready
    rw [Round, hround] at h
    cases h
    exact hclosed'
  · obtain ⟨next, hround, -, hclosed'⟩ := round_of_not_ready hclosed hready
    obtain rfl := hround.unique h
    exact hclosed'

/-- The connection stays closed over any number of rounds. -/
theorem closed_of_reaches {w' : LoopState} (h : ReflTransGen Round w w')
    (hclosed : w.socket.incoming.closed = true) : w'.socket.incoming.closed = true := by
  induction h with
  | refl => exact hclosed
  | tail _ hround ih => exact hround.closed ih

/-- A run of rounds that all find their header ready ends. -/
theorem ends_of_ready (hclosed : w.socket.incoming.closed = true)
    (hready : ∀ w', ReflTransGen Round w w' → w'.Ready) : Ends w := by
  -- each round that goes on leaves fewer bytes
  induction hlength : w.unread.length using Nat.strong_induction_on generalizing w with
  | _ length ih =>
    obtain ⟨result, s', hround, hclosed', hless⟩ := round_of_ready hclosed (hready w .refl)
    cases result with
    | none => exact ⟨w, .refl, s', hround⟩
    | some locals =>
      have hstep : Round w ⟨locals, s'⟩ := hround
      obtain ⟨w', hreaches, hleaves⟩ := ih _ (hlength ▸ hless) hclosed'
        (fun w' hreaches => hready w' (.head hstep hreaches)) rfl
      exact ⟨w', .head hstep hreaches, hleaves⟩

/-- Once the stream is used up, a round takes nothing and the loop goes on. -/
theorem round_of_empty (hclosed : w.socket.incoming.closed = true) (hnil : w.unread = []) :
    ∃ w', Round w w' ∧ w'.unread = w.unread ∧ w'.socket.incoming.closed = true := by
  apply round_of_not_ready hclosed
  intro hready
  exact Incoming.unread_ne_nil (Nat.ne_of_gt (Nat.lt_of_lt_of_le (by decide) hready.1)) hnil

/-- Once the stream is used up, it stays so. -/
theorem empty_of_reaches {w' : LoopState} (h : ReflTransGen Round w w')
    (hclosed : w.socket.incoming.closed = true) (hnil : w.unread = []) : w'.unread = [] := by
  induction h with
  | refl => exact hnil
  | tail hreaches hround ih =>
    obtain ⟨next, hnext, hkept, -⟩ := round_of_empty (closed_of_reaches hreaches hclosed) ih
    obtain rfl := hnext.unique hround
    exact hkept.trans ih

/-- Once the stream is used up, the loop is never left. -/
theorem not_ends_of_empty (hclosed : w.socket.incoming.closed = true) (hnil : w.unread = []) :
    ¬ Ends w := by
  rintro ⟨w', hreaches, hleaves⟩
  obtain ⟨next, hnext, -⟩ :=
    round_of_empty (closed_of_reaches hreaches hclosed) (empty_of_reaches hreaches hclosed hnil)
  exact hleaves.not_round hnext

end Closed

/-- After the peer has closed the connection the loop makes progress and ends exactly if every round
it reaches starts with a header that is ready. -/
theorem progress_iff_ready {w : LoopState} (hclosed : w.socket.incoming.closed = true) :
    Progress w ↔ ∀ w', ReflTransGen Round w w' → w'.Ready := by
  constructor
  · intro hprogress w' hreaches
    by_contra hready
    obtain ⟨next, hround, hkept, -⟩ :=
      round_of_not_ready (closed_of_reaches hreaches hclosed) hready
    have hless := hprogress.consumes hreaches hround
    rw [hkept] at hless
    exact Nat.lt_irrefl _ hless
  · intro hready
    refine ⟨ends_of_ready hclosed hready, ?_⟩
    intro w₁ w₂ hreaches hround
    obtain ⟨result, s', hround', -, hless⟩ :=
      round_of_ready (closed_of_reaches hreaches hclosed) (hready w₁ hreaches)
    rw [Round, hround'] at hround
    cases hround
    exact hless

/-- A thread that starts after the peer has sent these bytes and closed the connection; its sends
are accepted as the schedule says. -/
def hungUp (bytes : List UInt8) (schedule : List Acceptance) : LoopState where
  locals := ⟨⟨0, 0, 0, 0, 0, 0, 0, 0, 0, 0⟩, fun _ => 0, false⟩
  socket := ⟨⟨bytes, 0, [], true⟩, ⟨[], schedule⟩, fun _ => (0, 0), []⟩

/-- A frame with a one-byte descriptor. -/
def shortFrame : Frame := ⟨⟨[1], by decide, by decide⟩, (0, 0), 0⟩

/-- A thread whose first answer fails to be sent makes progress and ends. -/
theorem progress_of_failing_send : Progress (hungUp shortFrame.bytes [.failure]) := by
  have hleft : ((hungUp shortFrame.bytes [.failure]).round.map fun result => result.1.isNone) =
      some true := by decide +kernel
  obtain ⟨⟨result, s⟩, hround, hnone⟩ := Option.map_eq_some_iff.mp hleft
  obtain rfl := Option.isNone_iff_eq_none.mp hnone
  refine (progress_iff_ready rfl).mpr ?_
  intro w' hreaches
  -- the first round leaves the loop, so no other one is reached
  obtain rfl | ⟨next, hnext, -⟩ := hreaches.cases_head
  · show HeaderReady _ _
    decide +kernel
  · exact absurd hnext (Leaves.not_round ⟨s, hround⟩)

/-- Once the stream is used up the loop runs forever without taking a byte. -/
theorem hungUp_never_ends : Served (hungUp [] []) ∧ ¬ Ends (hungUp [] []) ∧
    ∃ w', Round (hungUp [] []) w' ∧ w'.unread.length = (hungUp [] []).unread.length := by
  obtain ⟨next, hnext, hkept, -⟩ := round_of_empty (w := hungUp [] []) rfl rfl
  exact ⟨.enter rfl rfl, not_ends_of_empty rfl rfl, next, hnext, congrArg List.length hkept⟩

end VirtualFirmware.Firmware
