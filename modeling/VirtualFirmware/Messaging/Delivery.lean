import VirtualFirmware.Library.Runs
import VirtualFirmware.Messaging.Checksum

/-!
# What one `recvdata` call does on a stream of whole frames

When everything written has arrived, `recvdata` either takes the first frame whole, or
leaves the stream as it is because the caller's buffer is too small, or waits because
there is no frame. The checksum only matters for the warning.
-/

namespace VirtualFirmware.Messaging

open Library

/-- `senddata` depends on the message's bytes only. -/
theorem senddata_congr {left right : Region} {length : UInt16}
    (h : ∀ offset, offset < length.toNat → left offset = right offset) (pad : Padding) :
    senddata pad left length = senddata pad right length := by
  rw [senddata, senddata, chksum_congr h, Region.load_eq_load_iff.mpr h]

/-- The receiver computes the sender's checksum, whatever else its buffer holds. -/
theorem chksum_store (data source : Region) (message : Message)
    (hsource : source.load message.payload.length = message.payload) :
    chksum (data.store message.payload) message.length = chksum source message.length := by
  have hload : (data.store message.payload).load message.payload.length =
      source.load message.payload.length := by
    rw [Region.load_store, hsource]
  apply chksum_congr
  rw [Message.length_toNat]
  exact Region.load_eq_load_iff.mp hload

/-- On a prompt stream that starts with a frame, the peeked header is that frame's. -/
theorem recv_peek_header {s : Incoming} (hprompt : s.Prompt) {frame : Frame} {rest : List UInt8}
    (hunread : s.unread = frame.bytes ++ rest) :
    Incoming.recv .peek headerSize s =
      some (((headerSize : Int), headerBytes frame.pad frame.message.length frame.sum),
        { s with arrived := s.unread.length }) := by
  rw [Frame.bytes, List.append_assoc] at hunread
  have hfront := Incoming.recv_peek_front hprompt _ _ (by rw [headerBytes_length]; decide) hunread
  rwa [headerBytes_length] at hfront

/-- Taking the header leaves the payload at the front of the stream. -/
theorem recv_take_header {s : Incoming} (hprompt : s.Prompt) {frame : Frame} {rest : List UInt8}
    (hunread : s.unread = frame.bytes ++ rest) :
    Incoming.recv .take headerSize s =
      some (((headerSize : Int), headerBytes frame.pad frame.message.length frame.sum),
        { s with unread := frame.message.payload ++ rest,
                 arrived := (frame.message.payload ++ rest).length }) := by
  rw [Frame.bytes, List.append_assoc] at hunread
  have hfront := Incoming.recv_take_front hprompt _ _ (by rw [headerBytes_length]; decide) hunread
  rwa [headerBytes_length] at hfront

/-- A message that fits is taken whole: it stands at the front of the buffer, and exactly its
frame leaves the stream. -/
theorem recvdata_fits {s : Incoming} (hprompt : s.Prompt) {frame : Frame} {rest : List UInt8}
    (hunread : s.unread = frame.bytes ++ rest) (data : Region) {length : UInt16}
    (hfits : frame.message.length ≤ length) :
    recvdata data length s =
      some ({ rc := 0, data := data.store frame.message.payload, length := frame.message.length,
              warned := decide (frame.sum ^^^
                chksum (data.store frame.message.payload) frame.message.length ≠ 0) },
            { s with unread := rest, arrived := rest.length }) := by
  have hnot : ¬ frame.message.length > length := UInt16.not_lt.mpr hfits
  have hpos := frame.message.nonempty
  unfold recvdata
  rw [stateT_bind_of_some (recv_peek_header hprompt hunread)]
  simp only [headerLength_headerBytes, headerSum_headerBytes, if_neg hnot, Message.length_toNat]
  rw [if_neg (by decide), if_neg (by decide), if_neg (by simp),
    stateT_bind_of_some (recv_take_header (by exact hprompt) (by exact hunread))]
  dsimp only
  rw [if_neg (by decide), if_neg (by decide),
    stateT_bind_of_some (Incoming.recv_take_front (by exact hprompt) _ _ hpos rfl)]
  dsimp only
  rw [if_neg (by omega), if_neg (by omega), if_neg (by simp)]
  rfl

/-- A message that does not fit leaves the stream, the buffer and the length as they were. -/
theorem recvdata_too_small {s : Incoming} (hprompt : s.Prompt) {frame : Frame} {rest : List UInt8}
    (hunread : s.unread = frame.bytes ++ rest) (data : Region) {length : UInt16}
    (hsmall : ¬ frame.message.length ≤ length) :
    recvdata data length s =
      some ({ rc := -1, data, length, errno := some .enomem },
        { s with arrived := s.unread.length }) := by
  unfold recvdata
  rw [stateT_bind_of_some (recv_peek_header hprompt hunread)]
  simp only [headerLength_headerBytes, if_pos (UInt16.not_le.mp hsmall)]
  rw [if_neg (by decide), if_neg (by decide), if_neg (by simp)]
  rfl

/-- With no frame in the stream of an open connection, `recvdata` waits. -/
theorem recvdata_waits {s : Incoming} (hprompt : s.Prompt) (hopen : s.closed = false)
    (hnil : s.unread = []) (data : Region) (length : UInt16) : recvdata data length s = none := by
  unfold recvdata
  exact stateT_bind_of_none (Incoming.recv_waits hprompt hopen hnil .peek (by decide)) _

end VirtualFirmware.Messaging
