import VirtualFirmware.Library.Session
import VirtualFirmware.Messaging.Delivery

/-!
# A connection carries messages as a mailbox does

The two ends of one connection are used by `senddata` and `recvdata` calls in any order.
The abstract mailbox hands over the oldest waiting message to a call whose buffer is large
enough, refuses it to a call whose buffer is too small, and lets a call wait when no
message is there. Every run of the byte stream is a run of the mailbox with the same
results.
-/

namespace VirtualFirmware.Messaging

open Library

/-- The arguments of one `senddata` call: the padding its header happens to have, the
caller's buffer, and a nonzero length. -/
structure Posting where
  pad : Padding
  data : Region
  length : UInt16
  pos : 0 < length

/-- The message a posting puts on the wire. -/
def Posting.message (posting : Posting) : Message where
  payload := posting.data.load posting.length.toNat
  nonempty := by simpa using UInt16.lt_iff_toNat_lt.mp posting.pos
  short := by
    have hlt := posting.length.toNat_lt
    rw [Region.load_length]
    omega

/-- The frame a posting puts on the wire. -/
def Posting.frame (posting : Posting) : Frame :=
  sentFrame posting.pad posting.data posting.message

/-- One call on either end of a connection. -/
inductive Call where
  | send (posting : Posting)
  | recv (data : Region) (length : UInt16)

/-- What a call returned. -/
inductive Outcome where
  | sent (result : Sent)
  | received (result : Received)

/-- The sending and the receiving end of one direction of a socket. -/
structure Connection where
  outgoing : Outgoing
  incoming : Incoming

/-- A connection on which nothing was sent yet, every send is accepted whole, and every byte
has arrived when it is asked for. -/
def Connection.fresh : Connection := ⟨Outgoing.fresh, Incoming.whole []⟩

/-- `senddata` on the sending end; what its socket accepted reaches the receiver. -/
def Connection.senddata (pad : Padding) (data : Region) (length : UInt16) (c : Connection) :
    Sent × Connection :=
  let (result, outgoing) := Messaging.senddata pad data length c.outgoing
  let written := outgoing.accepted.drop c.outgoing.accepted.length
  (result, ⟨outgoing, c.incoming.append written⟩)

/-- `recvdata` on the receiving end. -/
def Connection.recvdata (data : Region) (length : UInt16) (c : Connection) :
    Option (Received × Connection) :=
  (Messaging.recvdata data length c.incoming).map fun (result, incoming) =>
    (result, { c with incoming })

/-- Perform one call on the end it belongs to. -/
def Connection.call : Call → Connection → Option (Outcome × Connection)
  | .send posting, c =>
    let (result, c') := c.senddata posting.pad posting.data posting.length
    some (.sent result, c')
  | .recv data length, c =>
    (c.recvdata data length).map fun (result, c') => (.received result, c')

/-- The messages already handed over and those still waiting. -/
abbrev Mailbox := Fifo Posting

/-- What a call does to the mailbox, without bytes, headers or partial reads. -/
def Mailbox.call : Call → Mailbox → Option (Outcome × Mailbox)
  | .send posting, box => some (.sent { rc := posting.length.toNat }, box.put posting)
  | .recv data length, box =>
    match box.waiting with
    | [] => none
    | posting :: rest =>
      if posting.length ≤ length then
        some (.received { rc := 0, data := data.store posting.message.payload,
                          length := posting.length }, ⟨box.taken ++ [posting], rest⟩)
      else some (.received { rc := -1, data, length, errno := some .enomem }, box)

/-- The connection has carried the delivered messages, and its unread bytes are exactly the
frames of the waiting ones. -/
structure Connection.Refines (c : Connection) (box : Mailbox) : Prop where
  sender : c.outgoing.Prompt
  receiver : c.incoming.Prompt
  opened : c.incoming.closed = false
  accepted : c.outgoing.accepted = wire (box.history.map Posting.frame)
  unread : c.incoming.unread = wire (box.waiting.map Posting.frame)

/-- The header's length field of a posted message is the length the caller gave. -/
@[simp] theorem Posting.message_length (posting : Posting) :
    posting.message.length = posting.length := by
  simp [Message.length, Posting.message]

/-- A posted message that is received whole does not cause a checksum warning. -/
theorem Posting.not_warned (posting : Posting) (data : Region) :
    decide (posting.frame.sum ^^^ chksum (data.store posting.message.payload)
      posting.message.length ≠ 0) = false := by
  have hsum : posting.frame.sum =
      chksum (data.store posting.message.payload) posting.message.length :=
    (chksum_store data posting.data posting.message (by simp [Posting.message])).symm
  rw [hsum, UInt32.xor_self]
  rfl

/-- Sending appends one waiting message. -/
theorem Connection.Refines.senddata {c : Connection} {box : Mailbox} (h : c.Refines box)
    (posting : Posting) :
    ∃ c', c.senddata posting.pad posting.data posting.length =
      ({ rc := posting.length.toNat }, c') ∧ c'.Refines (box.put posting) := by
  have hload : posting.data.load posting.message.payload.length = posting.message.payload := by
    simp [Posting.message]
  have hsend := senddata_prompt h.sender posting.pad posting.data posting.message hload
  rw [← Message.length_toNat, Posting.message_length] at hsend
  simp only [Connection.senddata, hsend, List.drop_left]
  refine ⟨_, rfl, h.sender, h.receiver, h.opened, ?_, ?_⟩
  · simp [h.accepted, Posting.frame, Fifo.history, Fifo.put]
  · simp [Incoming.append, h.unread, Posting.frame, Fifo.put]

/-- With nothing waiting, receiving waits. -/
theorem Connection.Refines.recvdata_nil {c : Connection} {taken : List Posting}
    (h : c.Refines ⟨taken, []⟩) (data : Region) (length : UInt16) :
    c.recvdata data length = none := by
  rw [Connection.recvdata, recvdata_waits h.receiver h.opened h.unread, Option.map_none]

/-- A buffer that is large enough gets the oldest waiting message. -/
theorem Connection.Refines.recvdata_fits {c : Connection} {taken rest : List Posting}
    {posting : Posting} (h : c.Refines ⟨taken, posting :: rest⟩) (data : Region) {length : UInt16}
    (hfits : posting.length ≤ length) :
    ∃ c', c.recvdata data length =
      some ({ rc := 0, data := data.store posting.message.payload, length := posting.length }, c') ∧
        c'.Refines ⟨taken ++ [posting], rest⟩ := by
  have hunread := h.unread
  rw [List.map_cons, wire_cons] at hunread
  have hlength : posting.frame.message.length = posting.length := posting.message_length
  rw [Connection.recvdata, Messaging.recvdata_fits h.receiver hunread data (hlength ▸ hfits),
    show posting.frame.message = posting.message from rfl, posting.not_warned,
    posting.message_length]
  refine ⟨_, rfl, h.sender, h.receiver, h.opened, ?_, rfl⟩
  rw [h.accepted, Fifo.history, Fifo.history, List.append_assoc, List.singleton_append]

/-- A buffer that is too small changes nothing. -/
theorem Connection.Refines.recvdata_too_small {c : Connection} {taken rest : List Posting}
    {posting : Posting} (h : c.Refines ⟨taken, posting :: rest⟩) (data : Region) {length : UInt16}
    (hsmall : ¬ posting.length ≤ length) :
    ∃ c', c.recvdata data length =
      some ({ rc := -1, data, length, errno := some .enomem }, c') ∧
        c'.Refines ⟨taken, posting :: rest⟩ := by
  have hunread := h.unread
  rw [List.map_cons, wire_cons] at hunread
  have hlength : posting.frame.message.length = posting.length := posting.message_length
  rw [Connection.recvdata, Messaging.recvdata_too_small h.receiver hunread data (hlength ▸ hsmall)]
  exact ⟨_, rfl, h.sender, h.receiver, h.opened, h.accepted, h.unread⟩

/-- Every call on a connection does what the mailbox does. -/
theorem call_agree (call : Call) (c : Connection) (box : Mailbox) (h : c.Refines box) :
    Agree Connection.Refines (c.call call) (Mailbox.call call box) := by
  cases call with
  | send posting =>
    obtain ⟨c', hsend, hrefines⟩ := h.senddata posting
    rw [Connection.call, hsend]
    exact .some ⟨rfl, hrefines⟩
  | recv data length =>
    obtain ⟨taken, waiting⟩ := box
    cases waiting with
    | nil =>
      rw [Connection.call, h.recvdata_nil]
      exact .none
    | cons posting rest =>
      by_cases hfits : posting.length ≤ length
      · obtain ⟨c', hrecv, hrefines⟩ := h.recvdata_fits data hfits
        simp only [Connection.call, Mailbox.call, hrecv, if_pos hfits]
        exact .some ⟨rfl, hrefines⟩
      · obtain ⟨c', hrecv, hrefines⟩ := h.recvdata_too_small data hfits
        simp only [Connection.call, Mailbox.call, hrecv, if_neg hfits]
        exact .some ⟨rfl, hrefines⟩

/-- The payload a call puts on the wire. -/
def Call.payload : Call → Option (List UInt8)
  | .send posting => some posting.message.payload
  | .recv _ _ => none

/-- The bytes a successful receive reports at the front of the caller's buffer. -/
def Outcome.payload : Outcome → Option (List UInt8)
  | .sent _ => none
  | .received result => if result.rc = 0 then some (result.data.load result.length.toNat) else none

/-- What one call adds to the results and takes from the waiting messages. -/
theorem Mailbox.call_payloads {call : Call} {box final : Mailbox} {outcome : Outcome}
    (h : Mailbox.call call box = some (outcome, final)) :
    outcome.payload.toList ++ final.waiting.map (·.message.payload) =
      box.waiting.map (·.message.payload) ++ call.payload.toList := by
  cases call with
  | send posting =>
    simp only [Mailbox.call, Option.some.injEq, Prod.mk.injEq] at h
    obtain ⟨rfl, rfl⟩ := h
    simp [Outcome.payload, Call.payload, Fifo.put]
  | recv data length =>
    obtain ⟨taken, waiting⟩ := box
    cases waiting with
    | nil => contradiction
    | cons posting rest =>
      simp only [Mailbox.call] at h
      split at h <;> simp only [Option.some.injEq, Prod.mk.injEq] at h <;> obtain ⟨rfl, rfl⟩ := h
      · have hload := Region.load_store data posting.message.payload
        rw [← Message.length_toNat, posting.message_length] at hload
        simp [Outcome.payload, Call.payload, hload]
      · simp [Outcome.payload, Call.payload]

/-- Over a run, what was received and what still waits is what was sent, in order. -/
theorem Mailbox.run_payloads {calls : List Call} {box final : Mailbox} {outcomes : List Outcome}
    (h : runAll Mailbox.call calls box = some (outcomes, final)) :
    outcomes.filterMap Outcome.payload ++ final.waiting.map (·.message.payload) =
      box.waiting.map (·.message.payload) ++ calls.filterMap Call.payload := by
  induction calls generalizing box outcomes with
  | nil =>
    simp only [runAll, Option.some.injEq, Prod.mk.injEq] at h
    obtain ⟨rfl, rfl⟩ := h
    simp
  | cons call rest ih =>
    obtain ⟨⟨outcome, mid⟩, hcall, hrest⟩ := Option.bind_eq_some_iff.mp h
    obtain ⟨⟨later, last⟩, hlater, hfinal⟩ := Option.map_eq_some_iff.mp hrest
    simp only [Prod.mk.injEq] at hfinal
    obtain ⟨rfl, rfl⟩ := hfinal
    have hhead (outcome : Outcome) (outcomes : List Outcome) :
        (outcome :: outcomes).filterMap Outcome.payload =
          outcome.payload.toList ++ outcomes.filterMap Outcome.payload := by
      cases hpayload : outcome.payload <;> simp [hpayload]
    have hcalls : (call :: rest).filterMap Call.payload =
        call.payload.toList ++ rest.filterMap Call.payload := by
      cases hpayload : call.payload <;> simp [hpayload]
    rw [hhead, List.append_assoc, ih hlater, hcalls, ← List.append_assoc, call_payloads hcall,
      List.append_assoc]

/-- Whatever calls are made on a connection, in whatever order: it returns what the mailbox
returns and keeps exactly the frames of the undelivered messages unread. The received
payloads followed by the undelivered ones are the payloads sent. -/
theorem connection_delivers_messages (calls : List Call) :
    Agree Connection.Refines (runAll Connection.call calls Connection.fresh)
        (runAll Mailbox.call calls Fifo.empty) ∧
      ∀ outcomes c, runAll Connection.call calls Connection.fresh = some (outcomes, c) →
        ∃ undelivered : List Posting,
          c.incoming.unread = wire (undelivered.map Posting.frame) ∧
            outcomes.filterMap Outcome.payload ++ undelivered.map (·.message.payload) =
              calls.filterMap Call.payload := by
  have hfresh : Connection.fresh.Refines Fifo.empty := ⟨rfl, rfl, rfl, rfl, rfl⟩
  have hagree := runAll_agree call_agree calls hfresh
  refine ⟨hagree, ?_⟩
  intro outcomes c hrun
  obtain ⟨box, hbox, hrefines⟩ := (hrun ▸ hagree).right_returns
  exact ⟨box.waiting, hrefines.unread, Mailbox.run_payloads hbox⟩

/-- A three-byte message is refused to an empty buffer and then delivered to a larger one. -/
def refusedOnce : List Call :=
  [.send ⟨(7, 9), fun _ => 65, 3, by decide⟩, .recv (fun _ => 0) 0, .recv (fun _ => 0) 4]

/-- A refused message is still delivered by the next call. -/
theorem connection_delivers_refused_message :
    ∃ outcomes c, runAll Connection.call refusedOnce Connection.fresh = some (outcomes, c) ∧
      ∃ undelivered : List Posting,
        c.incoming.unread = wire (undelivered.map Posting.frame) ∧
          outcomes.filterMap Outcome.payload ++ undelivered.map (·.message.payload) =
            [[65, 65, 65]] := by
  have hreturns : (runAll Connection.call refusedOnce Connection.fresh).isSome = true := by
    decide
  obtain ⟨⟨outcomes, c⟩, hrun⟩ := Option.isSome_iff_exists.mp hreturns
  exact ⟨outcomes, c, hrun, (connection_delivers_messages refusedOnce).2 outcomes c hrun⟩

end VirtualFirmware.Messaging
