import VirtualFirmware.Device.Peer
import VirtualFirmware.Device.Platform
import VirtualFirmware.Library.Calls

/-!
# The buffers of the device's receive calls

The exchange is read with the size of each buffer: the descriptor variables, and the heap
blocks that `qemu_malloc` returned. The return buffer has the size of the command's data (one
byte if it has none), while its receive call is told the size the response announces.
-/

namespace VirtualFirmware.Device

open Library Messaging Adminq

/-- What a sized call of the device returns. -/
abbrev SizedDeviceReply (call : Sized DeviceOp) : Type := DeviceReply call.op

/-- Device code whose calls carry the sizes of their buffers. -/
abbrev SizedDeviceM := StateT Machine (Interaction (Sized DeviceOp) SizedDeviceReply)

/-- Perform one call on a buffer of this size. -/
def sizedCall (op : DeviceOp) (size : ℕ) : SizedDeviceM (DeviceReply op) := fun m =>
  .perform ⟨op, size⟩ fun reply => .pure (reply, m)

/-- The machine, with calls that carry the sizes of their buffers. -/
def sizedPlatform : AqPlatform SizedDeviceM where
  dev m := .pure (m.dev, m)
  setMacReg index value m := .pure ((), { m with dev := m.dev.setMac index value })
  setFs fs m := .pure ((), { m with dev := m.dev.withFs fs })
  note event m := .pure ((), { m with trace := m.trace ++ [event] })
  fdbg _ := pure ()
  qemuMalloc size m := .pure (some ⟨m.heap 0, mallocSize size⟩, m.allocated)
  memoryRead addr count m := .pure (m.ram.read addr count, m)
  memoryWrite addr bytes m := .pure ((), { m with ram := m.ram.write addr bytes })
  locate := sizedCall .locate 0
  close fs := sizedCall (.close fs) 0
  senddata fs buffer length :=
    sizedCall (.message fs (.senddata buffer.contents length)) buffer.size
  recvdata fs buffer length :=
    sizedCall (.message fs (.recvdata buffer.contents length)) buffer.size

/-- A sized call to the peer. -/
def Peer.sizedCall (call : Sized DeviceOp) (peer : Peer) : Option (DeviceReply call.op × Peer) :=
  Peer.call call.op peer

/-- A receive call stays inside its buffer; other calls store nothing. -/
def DeviceContained : (call : Sized DeviceOp) → Option (DeviceReply call.op) → Prop
  | ⟨.message _ op, size⟩, reply => Contained ⟨op, size⟩ reply
  | ⟨.locate, _⟩, _ => True
  | ⟨.close _, _⟩, _ => True

/-- Every receive call of the exchange stays inside the buffer it is given. -/
def ExchangeContained (m : Machine) (desc : AqDesc) (peer : Peer) : Prop :=
  (sizedPlatform.e1000SendAqCmd desc m).EveryCall Peer.sizedCall DeviceContained peer

/-- The response, if one is received, announces no more data than the block holds that was
allocated for as much data as the command has. -/
def ResponseFits (desc : AqDesc) (incoming : Incoming) : Prop :=
  ∀ received rest, Messaging.recvdata (fun _ => 0) (UInt16.ofNat AqDesc.size) incoming =
      some (received, rest) →
    ¬ received.rc < 0 →
      (AqDesc.ofRegion received.data).datalen.toNat ≤ mallocSize desc.datalen.toNat

section Calls

variable {A : Type} {m : Machine} {peer : Peer}

/-- A send returns and stores nothing. -/
theorem deviceSend_contained_iff {fs : Int} {buffer : Buffer} {length : UInt16}
    {next : Sent → SizedDeviceM A} :
    ((sizedPlatform.senddata fs buffer length >>= next) m).EveryCall Peer.sizedCall
      DeviceContained peer ↔
      (next (Messaging.senddata (peer.socket.pads 0) buffer.contents length
          peer.socket.outgoing).1 m).EveryCall Peer.sizedCall DeviceContained
        { peer with socket := peer.socket.afterSend buffer.contents length } := by
  change Interaction.EveryCall Peer.sizedCall DeviceContained
    (.perform ⟨.message fs (.senddata buffer.contents length), buffer.size⟩ fun sent =>
      next sent m) peer ↔ _
  exact ⟨And.right, fun h => ⟨trivial, h⟩⟩

/-- A receive stays inside its buffer exactly if it is told no more room, and then so has the rest
of the exchange to do if the receive returns. -/
theorem deviceRecv_contained_iff {fs : Int} {buffer : Buffer} {length : UInt16}
    {next : Received → SizedDeviceM A} :
    ((sizedPlatform.recvdata fs buffer length >>= next) m).EveryCall Peer.sizedCall
      DeviceContained peer ↔
      length.toNat ≤ buffer.size ∧
        ∀ received incoming,
          Messaging.recvdata buffer.contents length peer.socket.incoming =
            some (received, incoming) →
          (next received m).EveryCall Peer.sizedCall DeviceContained
            { peer with socket := { peer.socket with incoming } } := by
  change Interaction.EveryCall Peer.sizedCall DeviceContained
    (.perform ⟨.message fs (.recvdata buffer.contents length), buffer.size⟩ fun received =>
      next received m)
    peer ↔ _
  simp only [Interaction.EveryCall, Peer.sizedCall, Peer.call, Socket.call]
  cases hcall : Messaging.recvdata buffer.contents length peer.socket.incoming with
  | none => simp [DeviceContained, Contained]
  | some result =>
    obtain ⟨received, incoming⟩ := result
    simp only [Option.map_some, Option.some.injEq, Prod.mk.injEq]
    constructor
    · rintro ⟨hcontained, hnext⟩
      refine ⟨hcontained.1, ?_⟩
      rintro _ _ ⟨rfl, rfl⟩
      exact hnext
    · rintro ⟨hroom, hnext⟩
      exact ⟨recvdata_contained hroom hcall, hnext _ _ ⟨rfl, rfl⟩⟩

/-- Dropping the connection stores nothing. -/
theorem sendAqErr_contained (desc : AqDesc) (m : Machine) (peer : Peer) :
    (sizedPlatform.sendAqErr desc m).EveryCall Peer.sizedCall DeviceContained peer := by
  change True ∧ True
  exact ⟨trivial, trivial⟩

/-- Taking the response over stores nothing. -/
theorem sendAqDone_contained (recvDesc : AqDesc) (m : Machine) (peer : Peer) :
    (sizedPlatform.sendAqDone recvDesc m).EveryCall Peer.sizedCall DeviceContained peer := trivial

/-- A check of a call's result goes on with one of two programs. -/
theorem everyCall_ite {check : Prop} [Decidable check] {first second : SizedDeviceM A} :
    ((if check then first else second) m).EveryCall Peer.sizedCall DeviceContained peer ↔
      (check → (first m).EveryCall Peer.sizedCall DeviceContained peer) ∧
        (¬ check → (second m).EveryCall Peer.sizedCall DeviceContained peer) := by
  by_cases h : check <;> simp [h]

end Calls

section Exchange

variable (m : Machine) (desc : AqDesc) (peer : Peer)

/-- The return buffer is received inside its heap block exactly if no more is announced than the
block holds. -/
theorem recvAqBuffer_contained_iff (recvDesc : AqDesc) :
    (sizedPlatform.recvAqBuffer desc recvDesc m).EveryCall Peer.sizedCall DeviceContained peer ↔
      recvDesc.datalen.toNat ≤ mallocSize desc.datalen.toNat := by
  by_cases hdata : recvDesc.datalen > 0
  · have hbody : sizedPlatform.recvAqBuffer desc recvDesc m =
        (sizedPlatform.recvdata m.dev.fs ⟨m.heap 0, mallocSize desc.datalen.toNat⟩
            recvDesc.datalen >>= fun received =>
          if received.rc < 0 then sizedPlatform.sendAqErr desc
          else sizedPlatform.memoryWrite recvDesc.bufferAddr
              (received.data.load recvDesc.datalen.toNat) >>=
            fun _ => sizedPlatform.sendAqDone recvDesc) m.allocated := by
      rw [AqPlatform.recvAqBuffer, if_pos hdata]
      rfl
    rw [hbody, deviceRecv_contained_iff]
    refine ⟨And.left, fun hroom => ⟨hroom, fun received incoming _ => ?_⟩⟩
    exact everyCall_ite.mpr
      ⟨fun _ => sendAqErr_contained _ _ _, fun _ => sendAqDone_contained _ _ _⟩
  · rw [AqPlatform.recvAqBuffer, if_neg hdata]
    refine iff_of_true (sendAqDone_contained _ _ _) ?_
    have hzero : recvDesc.datalen.toNat = 0 := by
      rw [gt_iff_lt, UInt16.lt_iff_toNat_lt] at hdata
      exact Nat.le_zero.mp (Nat.le_of_not_lt hdata)
    exact hzero ▸ Nat.zero_le _

/-- The rest of the exchange stays inside its buffers exactly if the response fits. -/
theorem recvAqResponse_contained_iff :
    (sizedPlatform.recvAqResponse desc m).EveryCall Peer.sizedCall DeviceContained peer ↔
      ResponseFits desc peer.socket.incoming := by
  change ((sizedPlatform.recvdata m.dev.fs ⟨fun _ => 0, AqDesc.size⟩ (UInt16.ofNat AqDesc.size) >>=
    fun received => if received.rc < 0 then sizedPlatform.sendAqErr desc
      else sizedPlatform.recvAqBuffer desc (AqDesc.ofRegion received.data)) m).EveryCall _ _ _ ↔ _
  rw [deviceRecv_contained_iff]
  simp only [everyCall_ite, recvAqBuffer_contained_iff]
  constructor
  · exact fun h received rest hcall hrc => (h.2 received rest hcall).2 hrc
  · intro h
    refine ⟨(by decide : (UInt16.ofNat AqDesc.size).toNat ≤ AqDesc.size),
      fun received rest hcall => ?_⟩
    exact ⟨fun _ => sendAqErr_contained _ _ _, h received rest hcall⟩

/-- Sending the command's buffer stores nothing; if it fails there is no response. -/
theorem sendAqBuffer_contained_iff :
    (sizedPlatform.sendAqBuffer desc m).EveryCall Peer.sizedCall DeviceContained peer ↔
      ((desc.datalen > 0 →
        ¬ (Messaging.senddata (peer.socket.pads 0) (m.outBuffer desc) desc.datalen
        peer.socket.outgoing).1.rc < 0) → ResponseFits desc peer.socket.incoming) := by
  by_cases hdata : desc.datalen > 0
  · have hbody : sizedPlatform.sendAqBuffer desc m =
        (sizedPlatform.senddata m.dev.fs ⟨m.outBuffer desc, mallocSize desc.datalen.toNat⟩
            desc.datalen >>= fun sent =>
          if sent.rc < 0 then sizedPlatform.sendAqErr desc else sizedPlatform.recvAqResponse desc)
          m.allocated := by
      rw [AqPlatform.sendAqBuffer, if_pos hdata]
      rfl
    rw [hbody, deviceSend_contained_iff, everyCall_ite, recvAqResponse_contained_iff]
    exact ⟨fun h hsent => h.2 (hsent hdata), fun h => ⟨fun _ => sendAqErr_contained _ _ _,
      fun hsent => h fun _ => hsent⟩⟩
  · rw [AqPlatform.sendAqBuffer, if_neg hdata, recvAqResponse_contained_iff]
    exact ⟨fun h _ => h, fun h => h fun hpos => absurd hpos hdata⟩

/-- Sending the command stores nothing; if it fails there is no response. -/
theorem sendAqDesc_contained_iff :
    (sizedPlatform.sendAqDesc desc m).EveryCall Peer.sizedCall DeviceContained peer ↔
      (peer.Delivers m desc → ResponseFits desc peer.socket.incoming) := by
  change ((sizedPlatform.senddata m.dev.fs ⟨desc.toRegion, AqDesc.size⟩
    (UInt16.ofNat AqDesc.size) >>=
    fun sent => if sent.rc < 0 then sizedPlatform.sendAqErr desc
      else sizedPlatform.sendAqBuffer desc) m).EveryCall _ _ _ ↔ _
  rw [deviceSend_contained_iff, everyCall_ite, sendAqBuffer_contained_iff]
  exact ⟨fun h hdelivers => h.2 hdelivers.1 hdelivers.2,
    fun h => ⟨fun _ => sendAqErr_contained _ _ _, fun hdesc hbuffer => h ⟨hdesc, hbuffer⟩⟩⟩

/-- The receive calls of an exchange stay inside their buffers exactly if the response fits, once
the exchange gets as far as a response. -/
theorem exchangeContained_iff :
    ExchangeContained m desc peer ↔
      (peer.Connects m → peer.Delivers m desc → ResponseFits desc peer.socket.incoming) := by
  unfold ExchangeContained Peer.Connects
  by_cases hfs : m.dev.fs = invalidSocket
  · have hbody : sizedPlatform.e1000SendAqCmd desc m = .perform ⟨.locate, 0⟩ fun fs =>
        (if fs = invalidSocket then sizedPlatform.sendAqErr desc else sizedPlatform.sendAqDesc desc)
          { m with dev := m.dev.withFs fs } := by
      change (if m.dev.fs = invalidSocket then _ else _ : SizedDeviceM _) m = _
      rw [if_pos hfs]
      rfl
    rw [hbody]
    change True ∧ ((if peer.located = invalidSocket then sizedPlatform.sendAqErr desc
      else sizedPlatform.sendAqDesc desc) { m with dev := m.dev.withFs peer.located }).EveryCall
      _ _ peer ↔ _
    rw [true_and, everyCall_ite, sendAqDesc_contained_iff]
    exact ⟨fun h hconnects => h.2 (hconnects.resolve_left (not_not.mpr hfs)),
      fun h => ⟨fun _ => sendAqErr_contained _ _ _, fun hlocated => h (.inr hlocated)⟩⟩
  · have hbody : sizedPlatform.e1000SendAqCmd desc m = sizedPlatform.sendAqDesc desc m := by
      change (if m.dev.fs = invalidSocket then _
        else sizedPlatform.sendAqDesc desc : SizedDeviceM _) m = _
      rw [if_neg hfs]
    rw [hbody, sendAqDesc_contained_iff]
    exact ⟨fun h _ => h, fun h => h (.inl hfs)⟩

end Exchange

end VirtualFirmware.Device
