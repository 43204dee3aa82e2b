import VirtualFirmware.Messaging.Channel

/-!
# A socket and what happens on it

What the peer writes, how it arrives and what becomes of one's own sends is part of the
socket's state, so the outcome of a messaging call is a function of that state.
-/

namespace VirtualFirmware.Messaging

open Library

/-- A connected socket: its two directions, the padding that the coming headers will have, and
the payloads given to `senddata` so far. -/
structure Socket where
  incoming : Incoming
  outgoing : Outgoing
  pads : ℕ → Padding
  sent : List (List UInt8)

/-- The socket after a `senddata` call. -/
def Socket.afterSend (s : Socket) (data : Region) (length : UInt16) : Socket :=
  { s with
    outgoing := (Messaging.senddata (s.pads 0) data length s.outgoing).2
    pads := fun n => s.pads (n + 1)
    sent := s.sent ++ [data.load length.toNat] }

/-- A messaging call on the socket; `none` while it waits. -/
def Socket.call : (op : MessageOp) → Socket → Option (MessageReply op × Socket)
  | .senddata data length, s =>
    some ((Messaging.senddata (s.pads 0) data length s.outgoing).1, s.afterSend data length)
  | .recvdata data length, s =>
    (Messaging.recvdata data length s.incoming).map fun (reply, incoming) =>
      (reply, { s with incoming })

end VirtualFirmware.Messaging
