import VirtualFirmware.Messaging.Stream

/-!
# Messaging calls as operations on a pair of payload queues

A program that talks over a connected socket performs `senddata` on one connection and
`recvdata` on the other. Seen from outside the headers, a connection is a queue of
payloads: a send puts one in, a receive with enough room takes one out.
-/

namespace VirtualFirmware.Messaging

open Library

/-- A messaging call on a connected socket. -/
inductive MessageOp where
  | senddata (data : Region) (length : UInt16)
  | recvdata (data : Region) (length : UInt16)

/-- What the call returns. -/
abbrev MessageReply : MessageOp → Type
  | .senddata _ _ => Sent
  | .recvdata _ _ => Received

/-- The payloads a connection has handed over and those it still holds. -/
def Connection.Holds (c : Connection) (queue : Fifo (List UInt8)) : Prop :=
  ∃ box : Mailbox, c.Refines box ∧ box.map (·.message.payload) = queue

/-- A fresh connection holds nothing. -/
theorem Connection.fresh_holds : Connection.fresh.Holds Fifo.empty :=
  ⟨Fifo.empty, ⟨rfl, rfl, rfl, rfl, rfl⟩, rfl⟩

/-- Bytes are unread exactly while payloads wait. -/
theorem Connection.Holds.unread_eq_nil_iff {c : Connection} {queue : Fifo (List UInt8)}
    (h : c.Holds queue) : c.incoming.unread = [] ↔ queue.waiting = [] := by
  obtain ⟨⟨taken, waiting⟩, hrefines, rfl⟩ := h
  rw [hrefines.unread]
  cases waiting with
  | nil => simp [Fifo.map]
  | cons posting rest =>
    have hlen := congrArg List.length (wire_cons posting.frame (rest.map Posting.frame))
    simp only [List.length_append, Frame.bytes_length, headerSize] at hlen
    constructor
    · intro hnil
      rw [List.map_cons, ← List.length_eq_zero_iff] at hnil
      omega
    · intro hnil
      simp [Fifo.map] at hnil

/-- The call puts this payload into the queue and returns this. -/
def MessageOp.sends : (op : MessageOp) → List UInt8 → MessageReply op → Prop
  | .senddata data length, payload, reply =>
    0 < length ∧ payload = data.load length.toNat ∧ reply = { rc := length.toNat }
  | .recvdata _ _, _, _ => False

/-- The call has room for this payload and returns this when it finds it. -/
def MessageOp.receives : (op : MessageOp) → List UInt8 → MessageReply op → Prop
  | .senddata _ _, _, _ => False
  | .recvdata data length, payload, reply =>
    payload.length ≤ length.toNat ∧
      reply = { rc := 0, data := data.store payload, length := UInt16.ofNat payload.length }

/-- The call waits while the queue is empty. -/
def MessageOp.waits : MessageOp → Prop
  | .senddata _ _ => False
  | .recvdata _ _ => True

/-- One call by a party that sends on one connection and receives on the other. -/
def MessageOp.handle : (op : MessageOp) → (outgoing incoming : Connection) → MessageReply op →
    (outgoing' incoming' : Connection) → Prop
  | .senddata data length, outgoing, incoming, reply, outgoing', incoming' =>
    (∃ pad, outgoing.senddata pad data length = (reply, outgoing')) ∧ incoming' = incoming
  | .recvdata data length, outgoing, incoming, reply, outgoing', incoming' =>
    incoming.recvdata data length = some (reply, incoming') ∧ outgoing' = outgoing

namespace MessageOp

variable {op : MessageOp} {outgoing incoming outgoing' incoming' : Connection}
  {queue : Fifo (List UInt8)} {payload : List UInt8} {taken waiting : List (List UInt8)}
  {reply reply' : MessageReply op}

/-- A send puts its payload at the end of the outgoing queue, whatever the padding. -/
theorem senddata_holds (h : outgoing.Holds queue) {length : UInt16} (hpos : 0 < length)
    (pad : Padding) (data : Region) :
    ∃ outgoing', outgoing.senddata pad data length = ({ rc := length.toNat }, outgoing') ∧
      outgoing'.Holds (queue.put (data.load length.toNat)) := by
  obtain ⟨box, hrefines, rfl⟩ := h
  obtain ⟨outgoing', hsend, hrefines'⟩ := hrefines.senddata ⟨pad, data, length, hpos⟩
  exact ⟨outgoing', hsend, _, hrefines', by simp [Fifo.map, Fifo.put, Posting.message]⟩

/-- A receive with enough room takes the front of the incoming queue. -/
theorem recvdata_holds (h : incoming.Holds ⟨taken, payload :: waiting⟩) (data : Region)
    {length : UInt16} (hroom : payload.length ≤ length.toNat) :
    ∃ incoming', incoming.recvdata data length =
        some ({ rc := 0, data := data.store payload, length := UInt16.ofNat payload.length },
          incoming') ∧
      incoming'.Holds ⟨taken ++ [payload], waiting⟩ := by
  obtain ⟨⟨takenBox, waitingBox⟩, hrefines, hmap⟩ := h
  cases waitingBox with
  | nil => simp [Fifo.map] at hmap
  | cons posting rest =>
    simp only [Fifo.map, List.map_cons, Fifo.mk.injEq, List.cons.injEq] at hmap
    obtain ⟨rfl, rfl, rfl⟩ := hmap
    have hlength : posting.length = UInt16.ofNat posting.message.payload.length :=
      posting.message_length.symm
    have hfits : posting.length ≤ length := by
      rwa [UInt16.le_iff_toNat_le, ← posting.message_length, Message.length_toNat]
    obtain ⟨incoming', hrecv, hrefines'⟩ := hrefines.recvdata_fits data hfits
    rw [← hlength]
    exact ⟨incoming', hrecv, _, hrefines', by simp [Fifo.map]⟩

/-- A sending call does what it is said to do. -/
theorem handle_send (h : outgoing.Holds queue) (hop : op.sends payload reply)
    (hhandle : op.handle outgoing incoming reply' outgoing' incoming') :
    reply' = reply ∧ outgoing'.Holds (queue.put payload) ∧ incoming' = incoming := by
  cases op with
  | recvdata data length => exact hop.elim
  | senddata data length =>
    obtain ⟨hpos, rfl, rfl⟩ := hop
    obtain ⟨⟨pad, hsend⟩, hincoming⟩ := hhandle
    obtain ⟨after, hsend', hholds⟩ := senddata_holds h hpos pad data
    rw [hsend, Prod.mk.injEq] at hsend'
    obtain ⟨rfl, rfl⟩ := hsend'
    exact ⟨rfl, hholds, hincoming⟩

/-- A sending call never waits. -/
theorem send_handled (h : outgoing.Holds queue) (hop : op.sends payload reply)
    (incoming : Connection) :
    ∃ outgoing', op.handle outgoing incoming reply outgoing' incoming := by
  cases op with
  | recvdata data length => exact hop.elim
  | senddata data length =>
    obtain ⟨hpos, rfl, rfl⟩ := hop
    obtain ⟨after, hsend, -⟩ := senddata_holds h hpos (0, 0) data
    exact ⟨after, ⟨(0, 0), hsend⟩, rfl⟩

/-- A receiving call does what it is said to do. -/
theorem handle_recv (h : incoming.Holds ⟨taken, payload :: waiting⟩)
    (hop : op.receives payload reply)
    (hhandle : op.handle outgoing incoming reply' outgoing' incoming') :
    reply' = reply ∧ incoming'.Holds ⟨taken ++ [payload], waiting⟩ ∧ outgoing' = outgoing := by
  cases op with
  | senddata data length => exact hop.elim
  | recvdata data length =>
    obtain ⟨hroom, rfl⟩ := hop
    obtain ⟨hrecv, houtgoing⟩ := hhandle
    obtain ⟨after, hrecv', hholds⟩ := recvdata_holds h data hroom
    rw [hrecv, Option.some.injEq, Prod.mk.injEq] at hrecv'
    obtain ⟨rfl, rfl⟩ := hrecv'
    exact ⟨rfl, hholds, houtgoing⟩

/-- A receiving call returns once its payload is there. -/
theorem recv_handled (h : incoming.Holds ⟨taken, payload :: waiting⟩)
    (hop : op.receives payload reply) (outgoing : Connection) :
    ∃ incoming', op.handle outgoing incoming reply outgoing incoming' := by
  cases op with
  | senddata data length => exact hop.elim
  | recvdata data length =>
    obtain ⟨hroom, rfl⟩ := hop
    obtain ⟨after, hrecv, -⟩ := recvdata_holds h data hroom
    exact ⟨after, hrecv, rfl⟩

/-- A receiving call does not return while its queue is empty. -/
theorem handle_wait (h : incoming.Holds ⟨taken, []⟩) (hop : op.waits) :
    ¬ op.handle outgoing incoming reply outgoing' incoming' := by
  cases op with
  | senddata data length => exact hop.elim
  | recvdata data length =>
    obtain ⟨⟨takenBox, waitingBox⟩, hrefines, hmap⟩ := h
    simp only [Fifo.map, Fifo.mk.injEq, List.map_eq_nil_iff] at hmap
    obtain ⟨-, rfl⟩ := hmap
    rintro ⟨hrecv, -⟩
    rw [hrefines.recvdata_nil] at hrecv
    contradiction

/-- A call that finds a payload is one that waits for it. -/
theorem receives_waits (hop : op.receives payload reply) : op.waits := by
  cases op with
  | senddata data length => exact hop
  | recvdata data length => trivial

/-- A call that sends does not wait. -/
theorem sends_not_waits (hop : op.sends payload reply) : ¬ op.waits := by
  cases op with
  | senddata data length => exact id
  | recvdata data length => exact hop.elim

end MessageOp

end VirtualFirmware.Messaging
