import VirtualFirmware.Library.Bytes
import VirtualFirmware.Library.ByteStream

/-!
# The messaging functions `senddata` and `recvdata`

A message travels as a `struct msg_header` followed by its bytes. The header is sent as
the raw structure: a 16-bit length in network byte order, two padding bytes that the
sender never sets, and a 32-bit checksum in network byte order. The receiver peeks at the
header, so that a message that does not fit the caller's buffer stays in the stream.

A checksum mismatch is reported through `dbg` and otherwise ignored; the result records
that report. Other debug output is left out.
-/

namespace VirtualFirmware.Messaging

open Library

/-- The error numbers the messaging functions set themselves. -/
inductive Errno where
  | einval
  | ecanceled
  | enomem
deriving DecidableEq, Repr

/-- The little-endian word at offset `i`, with shifts taken modulo `2 ^ 32`. -/
def chksumWord (data : Region) (i : ℕ) : UInt32 :=
  (data i).toUInt32 ||| (data (i + 1)).toUInt32 <<< 8 ||| (data (i + 2)).toUInt32 <<< 16 |||
    (data (i + 3)).toUInt32 <<< 24

/-- The word loop of `chksum`, returning the sum and the index at which it stopped. -/
def chksumLoop (data : Region) : (rounds i : ℕ) → UInt32 → UInt32 × ℕ
  | 0, i, sum => (sum, i)
  | rounds + 1, i, sum => chksumLoop data rounds (i + 4) (sum ^^^ chksumWord data i)

/-- The exclusive-or checksum of the first `length` bytes. -/
def chksum (data : Region) (length : UInt16) : UInt32 :=
  let extra := length.toNat % 4
  let (sum, i) := chksumLoop data ((length.toNat - extra) / 4) 0 0
  if extra > 0 then
    let value := (if extra ≥ 1 then (data i).toUInt32 else 0) |||
      (if extra ≥ 2 then (data (i + 1)).toUInt32 else 0) <<< 8 |||
      (if extra ≥ 3 then (data (i + 2)).toUInt32 else 0) <<< 16
    sum ^^^ value
  else sum

/-- `sizeof(struct msg_header)`, including the padding between its fields. -/
def headerSize : ℕ := 8

/-- The two bytes between the header's fields, whatever the sender's stack held there. -/
abbrev Padding := UInt8 × UInt8

/-- The bytes of a `struct msg_header` with its fields in network byte order. -/
def headerBytes (pad : Padding) (length : UInt16) (sum : UInt32) : List UInt8 :=
  beBytes 2 length.toNat ++ [pad.1, pad.2] ++ beBytes 4 sum.toNat

/-- The length field of a received header, in host byte order. -/
def headerLength (m : List UInt8) : UInt16 := UInt16.ofNat (beNat (m.take 2))

/-- The checksum field of a received header, in host byte order. -/
def headerSum (m : List UInt8) : UInt32 := UInt32.ofNat (beNat (m.drop 4))

/-- The result of `senddata` and the error number it sets. -/
structure Sent where
  rc : Int
  errno : Option Errno := none
deriving DecidableEq, Repr

/-- Send the header of a message, then its bytes, each with one send call. -/
def senddata (pad : Padding) (data : Region) (length : UInt16) : StateM Outgoing Sent := do
  if length ≤ 0 then
    return { rc := -1, errno := some .einval }
  let rc ← Outgoing.send (headerBytes pad length (chksum data length))
  if rc = 0 then
    return { rc := -1, errno := some .ecanceled }
  else if rc < 0 then
    return { rc := -1 }
  let rc ← Outgoing.send (data.load length.toNat)
  if rc = 0 then
    return { rc := -1, errno := some .ecanceled }
  else if rc < 0 then
    return { rc := rc }
  return { rc := rc }

/-- The result of `recvdata`: the buffer and `*length` after the call, the error number it
sets, and whether it warned about the checksum. -/
structure Received where
  rc : Int
  data : Region
  length : UInt16
  errno : Option Errno := none
  warned : Bool := false

/-- Receive one message into `data`, which the caller says has room for `length` bytes. -/
def recvdata (data : Region) (length : UInt16) : StateT Incoming Option Received := do
  let (rc, m) ← Incoming.recv .peek headerSize
  if rc = 0 then
    return { rc := -1, data, length, errno := some .ecanceled }
  else if rc < 0 then
    return { rc := -1, data, length }
  else if rc ≠ headerSize then
    return { rc := -1, data, length, errno := some .ecanceled }
  let mLength := headerLength m
  let mSum := headerSum m
  if mLength > length then
    return { rc := -1, data, length, errno := some .enomem }
  let (rc, _) ← Incoming.recv .take headerSize
  if rc = 0 then
    return { rc := -1, data, length, errno := some .ecanceled }
  else if rc < 0 then
    return { rc := -1, data, length }
  let (rc, payload) ← Incoming.recv .take mLength.toNat
  let data := data.store payload
  if rc = 0 then
    return { rc := -1, data, length, errno := some .ecanceled }
  else if rc < 0 then
    return { rc := -1, data, length }
  else if rc ≠ mLength.toNat then
    return { rc := -1, data, length, errno := some .ecanceled }
  let recvSum := chksum data mLength
  return { rc := 0, data, length := mLength, warned := decide (mSum ^^^ recvSum ≠ 0) }

/-- A header occupies exactly its size. -/
@[simp] theorem headerBytes_length (pad : Padding) (length : UInt16) (sum : UInt32) :
    (headerBytes pad length sum).length = headerSize := by
  simp [headerBytes, headerSize]

/-- The receiver reads the length the sender stored, whatever the padding. -/
@[simp] theorem headerLength_headerBytes (pad : Padding) (length : UInt16) (sum : UInt32) :
    headerLength (headerBytes pad length sum) = length := by
  have htake : (headerBytes pad length sum).take 2 = beBytes 2 length.toNat := by
    rw [headerBytes, List.append_assoc, List.take_left' (beBytes_length 2 _)]
  rw [headerLength, htake, beNat_beBytes_of_lt length.toNat_lt, UInt16.ofNat_toNat]

/-- The receiver reads the checksum the sender stored, whatever the padding. -/
@[simp] theorem headerSum_headerBytes (pad : Padding) (length : UInt16) (sum : UInt32) :
    headerSum (headerBytes pad length sum) = sum := by
  have hdrop : (headerBytes pad length sum).drop 4 = beBytes 4 sum.toNat := by
    rw [headerBytes, List.drop_left' (by simp)]
  rw [headerSum, hdrop, beNat_beBytes_of_lt sum.toNat_lt, UInt32.ofNat_toNat]

/-- A payload the header's length field can describe and `senddata` accepts. -/
structure Message where
  payload : List UInt8
  nonempty : 0 < payload.length
  short : payload.length ≤ 65535

/-- A whole message on the wire: its padding and checksum are whatever the sender wrote. -/
structure Frame where
  message : Message
  pad : Padding
  sum : UInt32

/-- The length of a message in its header field. -/
def Message.length (message : Message) : UInt16 := UInt16.ofNat message.payload.length

/-- The length field does not truncate. -/
@[simp] theorem Message.length_toNat (message : Message) :
    message.length.toNat = message.payload.length := by
  have hshort := message.short
  rw [Message.length, UInt16.toNat_ofNat', Nat.mod_eq_of_lt (by omega)]

/-- The bytes of a frame in stream order. -/
def Frame.bytes (frame : Frame) : List UInt8 :=
  headerBytes frame.pad frame.message.length frame.sum ++ frame.message.payload

/-- The frames written one after another. -/
def wire (frames : List Frame) : List UInt8 := frames.flatMap Frame.bytes

/-- No frames are no bytes. -/
@[simp] theorem wire_nil : wire [] = [] := rfl

/-- Frames written one after another are concatenated. -/
@[simp] theorem wire_append (first second : List Frame) :
    wire (first ++ second) = wire first ++ wire second := by
  simp [wire]

/-- The first frame stands at the front. -/
@[simp] theorem wire_cons (frame : Frame) (rest : List Frame) :
    wire (frame :: rest) = frame.bytes ++ wire rest := by
  simp [wire]

/-- A frame is its header and its payload. -/
@[simp] theorem Frame.bytes_length (frame : Frame) :
    frame.bytes.length = headerSize + frame.message.payload.length := by
  simp [Frame.bytes]

/-- The frame `senddata` writes for a message that stands at the front of a buffer. -/
def sentFrame (pad : Padding) (data : Region) (message : Message) : Frame :=
  ⟨message, pad, chksum data message.length⟩

/-- When every send call is accepted whole, `senddata` writes exactly one frame and reports
the payload length. -/
theorem senddata_prompt {s : Outgoing} (hprompt : s.Prompt) (pad : Padding) (data : Region)
    (message : Message) (hdata : data.load message.payload.length = message.payload) :
    senddata pad data message.length s =
      ({ rc := message.payload.length },
        { s with accepted := s.accepted ++ (sentFrame pad data message).bytes }) := by
  have hpos := message.nonempty
  have hlen : ¬ message.length ≤ 0 := by
    rw [UInt16.le_iff_toNat_le, Message.length_toNat]
    change ¬ message.payload.length ≤ 0
    omega
  have hnil : message.payload ≠ [] := List.ne_nil_of_length_pos hpos
  have hnn : ¬ (message.payload.length : Int) < 0 := by omega
  have hprompt' (bytes : List UInt8) : ({ s with accepted := bytes } : Outgoing).Prompt := hprompt
  simp only [senddata, if_neg hlen, bind, StateT.bind, Outgoing.send_prompt hprompt,
    headerBytes_length, headerSize, Nat.cast_ofNat, pure]
  simp [StateT.bind, bind, Outgoing.send_prompt (hprompt' _), hdata, hnn, hnil, sentFrame,
    Frame.bytes]
  rfl

end VirtualFirmware.Messaging
