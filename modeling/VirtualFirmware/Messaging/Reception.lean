import Mathlib.Data.List.Infix
import VirtualFirmware.Messaging.Delivery

/-!
# What `recvdata` can return on a stream that arrives piece by piece

The unread bytes are the front of a sequence of frames, cut anywhere. However they arrive,
a call that succeeds has taken exactly the first frame. After a call that fails the stream
may stand anywhere.
-/

namespace VirtualFirmware.Messaging

open Library

/-- The three receive calls of a `recvdata` that succeeds: a header is peeked at, something of
the same size is taken, and then as much as the header says. -/
structure Accepted (data : Region) (s s' : Incoming) (received : Received) : Prop where
  calls : ∃ m seen rc b opened payload,
    Incoming.recv .peek headerSize s = some (((headerSize : Int), m), seen) ∧
    Incoming.recv .take headerSize seen = some ((rc, b), opened) ∧ 0 ≤ rc ∧
    Incoming.recv .take (headerLength m).toNat opened =
      some ((((headerLength m).toNat : Int), payload), s') ∧
    0 < (headerLength m).toNat ∧ received.data = data.store payload ∧
    received.length = headerLength m
  rc : received.rc = 0

/-- A check in `recvdata` fails the call, or the call goes on. -/
theorem check_cases {failure : Prop} [Decidable failure] {reply received : Received}
    {s s' : Incoming} {next : StateT Incoming Option Received} (hrc : reply.rc = -1)
    (h : (if failure then pure reply else next) s = some (received, s')) :
    received.rc < 0 ∨ (¬ failure ∧ next s = some (received, s')) := by
  by_cases hfailure : failure
  · rw [if_pos hfailure] at h
    cases h
    exact .inl (hrc ▸ by decide)
  · rw [if_neg hfailure] at h
    exact .inr ⟨hfailure, h⟩

/-- A call of `recvdata` that returns fails, or makes these three calls. -/
theorem recvdata_cases {s s' : Incoming} {data : Region} {length : UInt16} {received : Received}
    (h : recvdata data length s = some (received, s')) :
    received.rc < 0 ∨ Accepted data s s' received := by
  unfold recvdata at h
  -- every call is followed by its checks, which all fail with the same code
  obtain ⟨⟨rc, m⟩, seen, hpeek, h⟩ := stateT_bind_eq_some h
  obtain hfailed | ⟨-, h⟩ := check_cases rfl h
  · exact .inl hfailed
  obtain hfailed | ⟨-, h⟩ := check_cases rfl h
  · exact .inl hfailed
  obtain hfailed | ⟨hpeeked, h⟩ := check_cases rfl h
  · exact .inl hfailed
  obtain hfailed | ⟨-, h⟩ := check_cases rfl h
  · exact .inl hfailed
  obtain ⟨⟨rc', b⟩, opened, htake, h⟩ := stateT_bind_eq_some h
  obtain hfailed | ⟨-, h⟩ := check_cases rfl h
  · exact .inl hfailed
  obtain hfailed | ⟨htaken, h⟩ := check_cases rfl h
  · exact .inl hfailed
  obtain ⟨⟨rc'', payload⟩, final, hpayload, h⟩ := stateT_bind_eq_some h
  obtain hfailed | ⟨hnonzero, h⟩ := check_cases rfl h
  · exact .inl hfailed
  obtain hfailed | ⟨-, h⟩ := check_cases rfl h
  · exact .inl hfailed
  obtain hfailed | ⟨hwhole, h⟩ := check_cases rfl h
  · exact .inl hfailed
  cases h
  rw [not_not.mp hpeeked] at hpeek
  rw [not_not.mp hwhole] at hpayload hnonzero
  exact .inr ⟨⟨m, seen, rc', b, opened, payload, hpeek, htake, by omega, hpayload,
    by omega, rfl, rfl⟩,
    rfl⟩

/-- Eight bytes at the front of a sequence of frames are the header of the first. -/
theorem header_of_front {m : List UInt8} {frames : List Frame} (hlen : m.length = headerSize)
    (h : m <+: wire frames) :
    ∃ frame rest, frames = frame :: rest ∧
      m = headerBytes frame.pad frame.message.length frame.sum := by
  cases frames with
  | nil =>
    have hzero := h.length_le
    rw [hlen] at hzero
    contradiction
  | cons frame rest =>
    refine ⟨frame, rest, rfl, ?_⟩
    rw [wire_cons, Frame.bytes, List.append_assoc] at h
    have hheader : m <+: headerBytes frame.pad frame.message.length frame.sum :=
      List.prefix_of_prefix_length_le h (List.prefix_append _ _) (by simp [hlen])
    exact hheader.eq_of_length (by simp [hlen])

/-- What follows the header is the front of the payload and the frames after it. -/
theorem drop_header_front {bytes : List UInt8} {frame : Frame} {rest : List Frame}
    (h : bytes <+: wire (frame :: rest)) :
    bytes.drop headerSize <+: frame.message.payload ++ wire rest := by
  have hdrop := h.drop headerSize
  rwa [wire_cons, Frame.bytes, List.append_assoc,
    List.drop_left' (headerBytes_length _ _ _)] at hdrop

/-- A successful call took exactly the first frame; what is left is the front of the others. -/
theorem Accepted.first_frame {data : Region} {s s' : Incoming} {received : Received}
    (h : Accepted data s s' received) {frames : List Frame} (hfront : s.unread <+: wire frames) :
    ∃ frame rest, frames = frame :: rest ∧ received.data = data.store frame.message.payload ∧
      received.length = frame.message.length ∧ s'.unread <+: wire rest := by
  obtain ⟨m, seen, rc, b, opened, payload, hpeek, htake, hrc, hpayload, hpos, hdata, hlength⟩ :=
    h.calls
  obtain ⟨rfl, rfl⟩ := Incoming.recv_take_of_peek (by decide) hpeek htake hrc
  have hsize : 0 < headerSize := by decide
  -- the header is the first frame's
  obtain ⟨hnever, -⟩ | ⟨hm, -, hseen, hunread⟩ := Incoming.recv_cases hsize hpeek
  · contradiction
  obtain ⟨frame, rest, rfl, rfl⟩ :=
    header_of_front (by exact_mod_cast hm.symm) (hseen.trans hfront)
  rw [headerLength_headerBytes] at hpayload hpos hlength
  -- the bytes behind it begin with its payload
  obtain ⟨hnever, -⟩ | ⟨-, -, -, hopened⟩ := Incoming.recv_cases hsize htake
  · contradiction
  rw [if_pos rfl, headerBytes_length, hunread, if_neg (by decide)] at hopened
  have hrest := hopened ▸ drop_header_front hfront
  obtain ⟨hnever, -⟩ | ⟨hlen, -, htaken, hfinal⟩ := Incoming.recv_cases hpos hpayload
  · omega
  have hlen' : payload.length = frame.message.payload.length := by
    rw [← Message.length_toNat]
    exact_mod_cast hlen.symm
  have hsame : payload = frame.message.payload :=
    (List.prefix_of_prefix_length_le (htaken.trans hrest) (List.prefix_append _ _)
      hlen'.le).eq_of_length hlen'
  subst hsame
  refine ⟨frame, rest, rfl, hdata, hlength, ?_⟩
  have hdrop := hrest.drop frame.message.payload.length
  rw [if_pos rfl] at hfinal
  rwa [List.drop_left, ← hfinal] at hdrop

end VirtualFirmware.Messaging
