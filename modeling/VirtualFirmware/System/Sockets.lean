import Mathlib.Logic.Function.Basic
import VirtualFirmware.Device.Machine
import VirtualFirmware.Messaging.Reception

/-!
# The device's sockets

The device opens a connection with `locate`, uses it through the socket it got and closes
it. On each connection the peer writes some frames, of which any front arrives, in pieces,
before the connection ends. A closed socket's number may be used again for another
connection; calls on a number that is not open fail.
-/

namespace VirtualFirmware.System

open Library Messaging Device

/-- A connection: the frames its peer writes, its two directions, and the payloads that
`recvdata` has handed to the device. -/
structure Conn where
  frames : List Frame
  outgoing : Outgoing
  incoming : Incoming
  accepted : List (List UInt8)

/-- Nothing was read yet. How much of the frames comes through, in which pieces, and what the
connection does with the device's own bytes is left open. -/
def Conn.Fresh (conn : Conn) : Prop :=
  conn.accepted = [] ∧ conn.incoming.unread <+: wire conn.frames

/-- The payloads of the frames the peer writes. -/
def Conn.payloads (conn : Conn) : List (List UInt8) := conn.frames.map (·.message.payload)

/-- A messaging call on a connection. -/
def Conn.handle : (op : MessageOp) → Conn → MessageReply op → Conn → Prop
  | .senddata data length, conn, reply, conn' =>
    ∃ pad outgoing, Messaging.senddata pad data length conn.outgoing = (reply, outgoing) ∧
      conn' = { conn with outgoing }
  | .recvdata data length, conn, reply, conn' =>
    ∃ incoming, Messaging.recvdata data length conn.incoming = some (reply, incoming) ∧
      conn' = { conn with
        incoming
        accepted := if reply.rc < 0 then conn.accepted
          else conn.accepted ++ [reply.data.load reply.length.toNat] }

/-- What a call on a number that is not open returns. -/
def badSocket : (op : MessageOp) → MessageReply op
  | .senddata _ _ => { rc := -1 }
  | .recvdata data length => { rc := -1, data, length }

/-- All connections so far, and which of them the open sockets belong to. -/
structure Net where
  conns : List Conn
  table : Int → Option ℕ

/-- No connection was made yet. -/
def Net.unused : Net := ⟨[], fun _ => none⟩

/-- A socket call of the device. -/
def netHandle : (op : DeviceOp) → Net → DeviceReply op → Net → Prop
  | .locate, net, fs, net' =>
    (fs = invalidSocket ∧ net' = net) ∨ ∃ conn : Conn, conn.Fresh ∧ fs ≠ invalidSocket ∧
      net.table fs = none ∧
      net' = ⟨net.conns ++ [conn], Function.update net.table fs (some net.conns.length)⟩
  | .close fs, net, _, net' => net' = { net with table := Function.update net.table fs none }
  | .message fs op, net, reply, net' =>
    match net.table fs with
    | none => reply = badSocket op ∧ net' = net
    | some id => ∃ conn conn', net.conns[id]? = some conn ∧ conn.handle op reply conn' ∧
        net' = { net with conns := net.conns.set id conn' }

/-- The payloads accepted are the peer's first ones, in order. -/
def Conn.Sound (conn : Conn) : Prop := conn.accepted <+: conn.payloads

/-- The unread bytes begin with the frame after those accepted. -/
def Conn.AtBoundary (conn : Conn) : Prop :=
  ∃ taken rest, conn.frames = taken ++ rest ∧ conn.accepted = taken.map (·.message.payload) ∧
    conn.incoming.unread <+: wire rest

/-- At a frame boundary the payloads accepted are the peer's first ones. -/
theorem Conn.AtBoundary.sound {conn : Conn} (h : conn.AtBoundary) : conn.Sound := by
  obtain ⟨taken, rest, hframes, haccepted, -⟩ := h
  rw [Conn.Sound, Conn.payloads, hframes, haccepted, List.map_append]
  exact List.prefix_append _ _

/-- A fresh connection is at a frame boundary. -/
theorem Conn.Fresh.atBoundary {conn : Conn} (h : conn.Fresh) : conn.AtBoundary :=
  ⟨[], conn.frames, rfl, h.1, h.2⟩

/-- Sending does not move the stream that is read. -/
theorem Conn.AtBoundary.senddata {conn conn' : Conn} (h : conn.AtBoundary) {data : Region}
    {length : UInt16} {reply : Sent} (hhandle : conn.handle (.senddata data length) reply conn') :
    conn'.AtBoundary := by
  obtain ⟨pad, outgoing, -, rfl⟩ := hhandle
  exact h

/-- A call that fails accepts nothing; one that succeeds accepts the next frame's payload and
stops at the next boundary. -/
theorem Conn.AtBoundary.recvdata {conn conn' : Conn} (h : conn.AtBoundary) {data : Region}
    {length : UInt16} {reply : Received}
    (hhandle : conn.handle (.recvdata data length) reply conn') :
    conn'.Sound ∧ (¬ reply.rc < 0 → conn'.AtBoundary) := by
  obtain ⟨incoming, hrecv, rfl⟩ := hhandle
  rcases recvdata_cases hrecv with hfailed | haccepted
  · rw [if_pos hfailed]
    exact ⟨h.sound, fun hrc => absurd hfailed hrc⟩
  · obtain ⟨taken, rest, hframes, htaken, hunread⟩ := h
    obtain ⟨frame, rest', rfl, hdata, hlength, hfront⟩ := haccepted.first_frame hunread
    have hpayload : reply.data.load reply.length.toNat = frame.message.payload := by
      rw [hdata, hlength, Message.length_toNat, Region.load_store]
    rw [if_neg (by rw [haccepted.rc]; decide), hpayload]
    have hnext : Conn.AtBoundary
        ⟨conn.frames, conn.outgoing, incoming, conn.accepted ++ [frame.message.payload]⟩ :=
      ⟨taken ++ [frame], rest', by rw [hframes, List.append_assoc]; rfl, by simp [htaken], hfront⟩
    exact ⟨hnext.sound, fun _ => hnext⟩

end VirtualFirmware.System
