import VirtualFirmware.Adminq.Overlay
import VirtualFirmware.Device.AtqTail
import VirtualFirmware.Device.Peer
import VirtualFirmware.Messaging.Outcomes

/-!
# What an exchange copies to guest memory

The return buffer is received into a heap block and copied to the guest with the length the
response announced, not with the length that was received. If the frame is shorter, the rest
of the copy is what the heap block held before.
-/

namespace VirtualFirmware.Device

open Library Messaging Adminq

/-- The response that a frame's payload makes of the cleared `recv_desc`. -/
def responseOf (payload : List UInt8) : AqDesc :=
  AqDesc.ofRegion (Region.store (fun _ => 0) payload)

/-- The exchange gets a response that announces data, and then a return buffer. -/
structure ReturnsBuffer (m : Machine) (desc : AqDesc) (peer : Peer) (recvDesc : AqDesc)
    (payload : List UInt8) : Prop where
  connects : peer.Connects m
  delivers : peer.Delivers m desc
  frames : ∃ response middle rest, Takes (UInt16.ofNat AqDesc.size) peer.socket.incoming
    response middle ∧
    recvDesc = responseOf response ∧ Takes recvDesc.datalen middle payload rest
  announced : recvDesc.datalen > 0

/-- Guest RAM after an exchange that returns. -/
def exchangeRam (m : Machine) (desc : AqDesc) (peer : Peer) : Option AddressSpace :=
  ((e1000SendAqCmd desc m).runWith Peer.call peer).map fun result => result.1.2.ram

/-- The heap block into which the return buffer is received. -/
def Machine.returnBlock (m : Machine) (desc : AqDesc) : Region :=
  if desc.datalen > 0 then m.heap 1 else m.heap 0

/-- The bytes the exchange copies to the guest. -/
def Machine.copied (m : Machine) (desc recvDesc : AqDesc) (payload : List UInt8) : List UInt8 :=
  ((m.returnBlock desc).store payload).load recvDesc.datalen.toNat

section Run

variable {m : Machine} {desc recvDesc : AqDesc} {peer : Peer} {payload : List UInt8}

/-- Receiving the return buffer copies the heap block to the guest. -/
theorem recvAqBuffer_ram {rest : Incoming} (hannounced : recvDesc.datalen > 0)
    (htakes : Takes recvDesc.datalen peer.socket.incoming payload rest) :
    ((recvAqBuffer desc recvDesc m).runWith Peer.call peer).map (fun result => result.1.2.ram) =
      some (m.ram.write recvDesc.bufferAddr
        (((m.heap 0).store payload).load recvDesc.datalen.toNat)) := by
  obtain ⟨received, hcall, hrc, hdata⟩ := htakes.recvdata (m.heap 0)
  rw [recvAqBuffer_of_pos m hannounced, recvdata_runWith hcall, if_neg (by omega), hdata]
  rfl

/-- Waiting for the response ends with the copy. -/
theorem recvAqResponse_ram {response : List UInt8} {middle rest : Incoming}
    (hresponse : Takes (UInt16.ofNat AqDesc.size) peer.socket.incoming response middle)
    (hannounced : (responseOf response).datalen > 0)
    (htakes : Takes (responseOf response).datalen middle payload rest) :
    ((recvAqResponse desc m).runWith Peer.call peer).map (fun result => result.1.2.ram) =
      some (m.ram.write (responseOf response).bufferAddr
        (((m.heap 0).store payload).load (responseOf response).datalen.toNat)) := by
  obtain ⟨received, hcall, hrc, hdata⟩ := hresponse.recvdata fun _ => 0
  change (((recvdata m.dev.fs (fun _ => 0) (UInt16.ofNat AqDesc.size) >>= fun received =>
    if received.rc < 0 then sendAqErr desc
    else recvAqBuffer desc (AqDesc.ofRegion received.data)) m).runWith Peer.call peer).map _ = _
  rw [recvdata_runWith hcall, if_neg (by omega), hdata]
  exact recvAqBuffer_ram hannounced htakes

/-- Sending the command's buffer takes one heap block and goes on to the response. -/
theorem sendAqBuffer_ram {response : List UInt8} {middle rest : Incoming}
    (hsent : desc.datalen > 0 →
      ¬ (Messaging.senddata (peer.socket.pads 0) (m.outBuffer desc) desc.datalen
      peer.socket.outgoing).1.rc < 0)
    (hresponse : Takes (UInt16.ofNat AqDesc.size) peer.socket.incoming response middle)
    (hannounced : (responseOf response).datalen > 0)
    (htakes : Takes (responseOf response).datalen middle payload rest) :
    ((sendAqBuffer desc m).runWith Peer.call peer).map (fun result => result.1.2.ram) =
      some (m.ram.write (responseOf response).bufferAddr
        (m.copied desc (responseOf response) payload)) := by
  rw [Machine.copied, Machine.returnBlock]
  by_cases hdata : desc.datalen > 0
  · rw [sendAqBuffer_of_pos m hdata, senddata_runWith, ← Machine.outBuffer, if_neg (hsent hdata),
      if_pos hdata]
    exact recvAqResponse_ram hresponse hannounced htakes
  · rw [sendAqBuffer_of_not_pos m hdata, if_neg hdata]
    exact recvAqResponse_ram hresponse hannounced htakes

/-- Sending the command goes on to its buffer. -/
theorem sendAqDesc_ram (h : ReturnsBuffer m desc peer recvDesc payload) :
    ((sendAqDesc desc m).runWith Peer.call peer).map (fun result => result.1.2.ram) =
      some (m.ram.write recvDesc.bufferAddr (m.copied desc recvDesc payload)) := by
  obtain ⟨response, middle, rest, hresponse, rfl, htakes⟩ := h.frames
  change (((senddata m.dev.fs desc.toRegion (UInt16.ofNat AqDesc.size) >>= fun sent =>
    if sent.rc < 0 then sendAqErr desc else sendAqBuffer desc) m).runWith Peer.call peer).map _ = _
  rw [senddata_runWith, if_neg h.delivers.1]
  exact sendAqBuffer_ram h.delivers.2 hresponse h.announced htakes

/-- The exchange writes these bytes to the guest address of the response, and nothing else. -/
theorem exchangeRam_eq (h : ReturnsBuffer m desc peer recvDesc payload) :
    exchangeRam m desc peer =
      some (m.ram.write recvDesc.bufferAddr (m.copied desc recvDesc payload)) := by
  unfold exchangeRam
  by_cases hfs : m.dev.fs = invalidSocket
  · have hlocated : peer.located ≠ invalidSocket := h.connects.resolve_left (not_not.mpr hfs)
    have hrun : (e1000SendAqCmd desc m).runWith Peer.call peer =
        (sendAqDesc desc { m with dev := m.dev.withFs peer.located }).runWith Peer.call peer := by
      change ((if m.dev.fs = invalidSocket then _ else _ : DeviceM _) m).runWith Peer.call peer = _
      rw [if_pos hfs]
      change ((if peer.located = invalidSocket then _ else sendAqDesc desc : DeviceM _)
        { m with dev := m.dev.withFs peer.located }).runWith Peer.call peer = _
      rw [if_neg hlocated]
    rw [hrun]
    exact sendAqDesc_ram (m := { m with dev := m.dev.withFs peer.located })
      ⟨.inr hlocated, h.delivers, h.frames, h.announced⟩
  · have hrun : e1000SendAqCmd desc m = sendAqDesc desc m := by
      change (if m.dev.fs = invalidSocket then _ else sendAqDesc desc : DeviceM _) m = _
      rw [if_neg hfs]
    rw [hrun]
    exact sendAqDesc_ram h

/-- What the command's buffer is sent from does not matter. -/
theorem ReturnsBuffer.withHeap (h : ReturnsBuffer m desc peer recvDesc payload)
    (heap : ℕ → Region) :
    ReturnsBuffer { m with heap } desc peer recvDesc payload := by
  refine ⟨h.connects, ⟨h.delivers.1, fun hdata => ?_⟩, h.frames, h.announced⟩
  have hsame : ∀ offset, offset < desc.datalen.toNat →
      Machine.outBuffer { m with heap } desc offset = m.outBuffer desc offset := by
    intro offset hoffset
    have hstored : offset < (m.ram.read desc.bufferAddr desc.datalen.toNat).length := by
      simpa using hoffset
    simp only [Machine.outBuffer, Region.store, List.getD_eq_getElem _ _ hstored]
  rw [senddata_congr hsame]
  exact h.delivers.2 hdata

end Run

/-- Guest RAM changes only by bytes of the received frame, each at its own offset behind the address
the response names, and whatever the heap held before. -/
structure OnlyPeerBytes (m : Machine) (desc : AqDesc) (peer : Peer) (recvDesc : AqDesc)
    (payload : List UInt8) : Prop where
  written : ∃ bytes, bytes.length = recvDesc.datalen.toNat ∧ bytes <+: payload ∧
    exchangeRam m desc peer = some (m.ram.write recvDesc.bufferAddr bytes)
  independent : ∀ heap, exchangeRam { m with heap } desc peer = exchangeRam m desc peer

/-- The guest receives only bytes the peer sent exactly if the response announces no more than the
return buffer's frame has. -/
theorem onlyPeerBytes_iff {m : Machine} {desc : AqDesc} {peer : Peer} {recvDesc : AqDesc}
    {payload : List UInt8} (h : ReturnsBuffer m desc peer recvDesc payload) :
    OnlyPeerBytes m desc peer recvDesc payload ↔ recvDesc.datalen.toNat ≤ payload.length := by
  constructor
  · intro honly
    obtain ⟨bytes, hlength, hfront, -⟩ := honly.written
    exact hlength ▸ hfront.length_le
  · intro hlong
    obtain ⟨response, middle, rest, -, -, htakes⟩ := h.frames
    have hlength : recvDesc.datalen.toNat = payload.length :=
      Nat.le_antisymm hlong htakes.length_eq.2
    have hcopied (heap : ℕ → Region) : Machine.copied { m with heap } desc recvDesc payload =
        payload := by
      rw [Machine.copied, hlength, Region.load_store]
    refine ⟨⟨payload, hlength.symm, List.prefix_rfl, ?_⟩, ?_⟩
    · rw [exchangeRam_eq h]
      exact congrArg (fun bytes => some (m.ram.write recvDesc.bufferAddr bytes)) (hcopied m.heap)
    · intro heap
      rw [exchangeRam_eq h, exchangeRam_eq (h.withHeap heap), hcopied heap]
      exact congrArg (fun bytes => some (m.ram.write recvDesc.bufferAddr bytes))
        (hcopied m.heap).symm

/-- A peer that echoes a command with two bytes of data and returns these bytes. -/
def echoPeer (payload : Message) : Peer where
  located := 7
  socket := ⟨Incoming.whole (wire [descFrame (command 3 2), ⟨payload, (0, 0), 0⟩]), Outgoing.fresh,
    fun _ => (0, 0), []⟩

/-- The peer's response and the bytes it returns are received. -/
theorem echoPeer_returns (payload : Message) (h : payload.payload.length ≤ 2) :
    ReturnsBuffer default (command 3 2) (echoPeer payload) (responseOf (command 3 2).bytes)
      payload.payload where
  connects := .inl (by decide)
  delivers := ⟨(by decide +kernel : ¬ (Messaging.senddata (0, 0) (command 3 2).toRegion
      (UInt16.ofNat AqDesc.size) Outgoing.fresh).1.rc < 0),
    fun _ =>
      (by decide +kernel : ¬ (Messaging.senddata (0, 0) (Machine.outBuffer default (command 3 2)) 2
      (Messaging.senddata (0, 0) (command 3 2).toRegion (UInt16.ofNat AqDesc.size)
        Outgoing.fresh).2).1.rc < 0)⟩
  frames := by
    have hdatalen : (responseOf (command 3 2).bytes).datalen = 2 := by decide +kernel
    have hfits : payload.length ≤ (responseOf (command 3 2).bytes).datalen := by
      rw [hdatalen, UInt16.le_iff_toNat_le, Message.length_toNat]
      exact h
    have hbuffer : (Incoming.whole (wire [⟨payload, (0, 0), 0⟩])).Prompt := rfl
    have hresponse : (echoPeer payload).socket.incoming.Prompt := rfl
    exact ⟨_, _, _, takes_prompt hresponse rfl (by decide +kernel), rfl,
      takes_prompt hbuffer rfl hfits⟩
  announced := by decide +kernel

/-- A peer that returns as many bytes as its response announces. -/
theorem onlyPeerBytes_two : OnlyPeerBytes default (command 3 2)
    (echoPeer ⟨[1, 2], by decide, by decide⟩) (responseOf (command 3 2).bytes) [1, 2] :=
  (onlyPeerBytes_iff (echoPeer_returns ⟨[1, 2], by decide, by decide⟩ (by decide))).mpr
  (by decide +kernel)

/-- A peer whose response announces two bytes but that returns one lets the guest see a byte of the
heap. -/
theorem heap_byte_copied : ∃ heap,
    ReturnsBuffer default (command 3 2) (echoPeer ⟨[1], by decide, by decide⟩)
      (responseOf (command 3 2).bytes) [1] ∧
    exchangeRam { (default : Machine) with heap } (command 3 2)
      (echoPeer ⟨[1], by decide, by decide⟩) ≠
      exchangeRam default (command 3 2) (echoPeer ⟨[1], by decide, by decide⟩) := by
  have hreturns := echoPeer_returns ⟨[1], by decide, by decide⟩ (by decide)
  refine ⟨fun _ _ => 9, hreturns, ?_⟩
  rw [exchangeRam_eq hreturns, exchangeRam_eq (hreturns.withHeap _), Ne, Option.some.injEq]
  intro hsame
  have hbytes := AddressSpace.write_inj (by rfl) (by decide +kernel) hsame
  exact absurd hbytes (by decide +kernel)

end VirtualFirmware.Device
