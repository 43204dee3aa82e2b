import VirtualFirmware.Device.Machine
import VirtualFirmware.Messaging.Socket

/-!
# One exchange of the device with its peer

An exchange uses one socket: the one the device holds, or the one that `locate` returns. What
the peer sends on it, how it arrives, and what becomes of the device's own sends is the
socket's state.
-/

namespace VirtualFirmware.Device

open Library Messaging Adminq

/-- What is outside the device during one exchange: the result of `locate`, and the socket. -/
structure Peer where
  located : Int
  socket : Socket

/-- A socket call of the device; `none` while it waits. -/
def Peer.call : (op : DeviceOp) → Peer → Option (DeviceReply op × Peer)
  | .locate, peer => some (peer.located, peer)
  | .close _, peer => some ((), peer)
  | .message _ op, peer =>
    (Socket.call op peer.socket).map fun (reply, socket) => (reply, { peer with socket })

/-- The device has a connection, or gets one. -/
def Peer.Connects (m : Machine) (peer : Peer) : Prop :=
  m.dev.fs ≠ invalidSocket ∨ peer.located ≠ invalidSocket

/-- The command's buffer as it stands in the heap block from which it is sent. -/
def Machine.outBuffer (m : Machine) (desc : AqDesc) : Region :=
  (m.heap 0).store (m.ram.read desc.bufferAddr desc.datalen.toNat)

/-- The sends of the command and, if it has one, of its buffer do not fail. -/
def Peer.Delivers (m : Machine) (desc : AqDesc) (peer : Peer) : Prop :=
  ¬ (Messaging.senddata (peer.socket.pads 0) desc.toRegion (UInt16.ofNat AqDesc.size)
      peer.socket.outgoing).1.rc < 0 ∧
    (desc.datalen > 0 → ¬ (Messaging.senddata (peer.socket.pads 1) (m.outBuffer desc) desc.datalen
      (peer.socket.afterSend desc.toRegion (UInt16.ofNat AqDesc.size)).outgoing).1.rc < 0)

section Calls

variable {A : Type} {m : Machine} {peer : Peer} {fs : Int} {data : Region} {length : UInt16}

/-- A send hands its result to the rest of the exchange. -/
theorem senddata_runWith {next : Sent → DeviceM A} :
    ((senddata fs data length >>= next) m).runWith Peer.call peer =
      (next (Messaging.senddata (peer.socket.pads 0) data length peer.socket.outgoing).1 m).runWith
        Peer.call { peer with socket := peer.socket.afterSend data length } := rfl

/-- A receive that returns hands its result to the rest of the exchange. -/
theorem recvdata_runWith {received : Received} {incoming : Incoming} {next : Received → DeviceM A}
    (h : Messaging.recvdata data length peer.socket.incoming = some (received, incoming)) :
    ((recvdata fs data length >>= next) m).runWith Peer.call peer =
      (next received m).runWith Peer.call
        { peer with socket := { peer.socket with incoming } } := by
  change Interaction.runWith Peer.call
    (.perform (.message fs (.recvdata data length)) fun received => next received m) peer = _
  simp only [Interaction.runWith, Peer.call, Socket.call, h, Option.map_some, Option.bind_some]

end Calls

end VirtualFirmware.Device
