import VirtualFirmware.Device.DmaWrites

/-!
# The exchange on a machine with a register window

With the tail handler at the limit, each part of the admin queue's code has on the queue the
effect that the outcome of the exchange determines. The stages are those of the exchange; until
the response is there, nothing concerns the queue.
-/

namespace VirtualFirmware.Device

open Library Messaging Adminq

/-- The exchange has no response yet, and the queue is as it was before. -/
structure Unanswered (m : Machine) (st : Mapped) : Prop where
  view : st.view = m.queueView
  isOpen : st.calls.any closes = false
  nothing : st.calls.filterMap receivedBy = []

/-- What an exchange can do: it fails and leaves the queue alone, or it returns the response and has
copied its return buffer. -/
def ExchangeEnds (map : MemoryMap) (m : Machine) (desc : AqDesc)
    (result : (Int × AqDesc) × Mapped) : Prop :=
  (result.1 = (-1, desc) ∧ Outcome.of result.2.calls = .failed ∧ result.2.view = m.queueView) ∨
    ∃ response returned, result.1 = (0, response) ∧
      Outcome.of result.2.calls = .answered response returned ∧
      result.2.Shows (map.queueAfter m ((Outcome.answered response returned).copies map m desc))

section Exchange

variable (map : MemoryMap) (xmit : Transmit) {m : Machine} {st : Mapped} (desc : AqDesc)

/-- Dropping the connection ends the exchange. -/
theorem sendAqErr_ends (hview : st.view = m.queueView) :
    Interaction.Always (ExchangeEnds map m desc)
      ((mappedPlatform map xmit tailAtLimit).sendAqErr desc st) := by
  intro reply
  refine .inl ⟨rfl, Outcome.of_closes ?_, hview⟩
  exact List.any_eq_true.mpr ⟨_, List.mem_append_right _ (List.mem_singleton_self _), rfl⟩

/-- Writing a range has the effect of its register writes. -/
theorem memoryWrite_writes (addr : UInt64) (bytes : List UInt8) (st : Mapped) :
    Interaction.Always (fun result => Writes (map.registerWrites [(addr, bytes)]) st result.2)
      ((mappedPlatform map xmit tailAtLimit).memoryWrite addr bytes st) := by
  have hwrites : map.registerWrites [(addr, bytes)] =
      accesses (map.pieces addr bytes.length) bytes :=
    List.append_nil _
  rw [hwrites]
  exact writePieces_writes xmit _ bytes st

/-- The queue after ranges were written, if it was the one before the tail write. -/
theorem Writes.queueAfter {map : MemoryMap} {writes : List (UInt64 × List UInt8)} {st' : Mapped}
    (h : Writes (map.registerWrites writes) st st') (hview : st.view = m.queueView) :
    st'.Shows (map.queueAfter m writes) := by
  have hshows := h.shows
  rwa [hview] at hshows

/-- Receiving the return buffer ends the exchange. -/
theorem recvAqBuffer_ends (hview : st.view = m.queueView) (hopen : st.calls.any closes = false)
    {first : Received} (hfirst : st.calls.filterMap receivedBy = [first]) :
    Interaction.Always (ExchangeEnds map m desc)
      ((mappedPlatform map xmit tailAtLimit).recvAqBuffer desc
        (AqDesc.ofRegion first.data) st) := by
  refine always_ite (fun hdatalen second => ?_) fun hdatalen => ?_
  · refine always_ite (fun _ => sendAqErr_ends map xmit desc hview) fun _ => ?_
    rw [always_sequence]
    refine (memoryWrite_writes map xmit _ _ _).mono fun result h => ?_
    have hkept : result.2.calls.any closes = false := by
      rw [h.calls]
      exact List.any_append.trans (by rw [hopen]; rfl)
    have hboth : result.2.calls.filterMap receivedBy = [first, second] := by
      rw [h.calls]
      exact List.filterMap_append.trans (by rw [hfirst]; rfl)
    refine .inr ⟨_, _, rfl,
      (Outcome.of_received hkept hboth).trans (congrArg _ (List.append_nil _)), ?_⟩
    rw [Outcome.copies, if_pos hdatalen]
    exact h.queueAfter hview
  · refine .inr ⟨_, [], rfl, Outcome.of_received hopen hfirst, fun _ => ?_⟩
    rw [Outcome.copies, if_neg hdatalen]
    exact hview

/-- Waiting for the response goes on to its return buffer. -/
theorem recvAqResponse_ends (h : Unanswered m st) :
    Interaction.Always (ExchangeEnds map m desc)
      ((mappedPlatform map xmit tailAtLimit).recvAqResponse desc st) := by
  intro received
  refine always_ite (fun _ => sendAqErr_ends map xmit desc h.view) fun _ => ?_
  apply recvAqBuffer_ends
  · exact h.view
  · exact List.any_append.trans (by rw [h.isOpen]; rfl)
  · exact List.filterMap_append.trans (by rw [h.nothing]; rfl)

/-- A call that neither closes nor receives leaves the exchange without a response. -/
theorem Unanswered.call (h : Unanswered m st) {st' : Mapped} {call : Sigma DeviceReply}
    (hview : st'.view = st.view) (hcalls : st'.calls = st.calls ++ [call])
    (hcloses : closes call = false)
    (hreceived : receivedBy call = none) : Unanswered m st' where
  view := hview.trans h.view
  isOpen := by simp [hcalls, h.isOpen, hcloses]
  nothing := by simp [hcalls, h.nothing, hreceived]

/-- Reading guest memory leaves the queue alone. -/
theorem readPieces_view (pieces : List Piece) (st : Mapped) (calls : List (Sigma DeviceReply)) :
    Mapped.view ⟨(readPieces pieces st.machine).2, calls, st.cutOff⟩ = st.view := by
  have hsame : SameQueue (readPieces pieces st.machine).2 st.machine := fun reg hreg =>
    readPieces_macReg (watched_of_viewed reg hreg) pieces st.machine
  exact hsame.view calls st.calls st.cutOff

/-- Sending the command's buffer goes on to the response. -/
theorem sendAqBuffer_ends (h : Unanswered m st) :
    Interaction.Always (ExchangeEnds map m desc)
      ((mappedPlatform map xmit tailAtLimit).sendAqBuffer desc st) := by
  refine always_ite (fun _ sent => ?_) fun _ => recvAqResponse_ends map xmit desc h
  have hview := readPieces_view (map.pieces desc.bufferAddr desc.datalen.toNat)
    { st with machine := st.machine.allocated }
  refine always_ite (fun _ => sendAqErr_ends map xmit desc ((hview _).trans h.view)) fun _ => ?_
  exact recvAqResponse_ends map xmit desc (h.call (hview _) rfl rfl rfl)

/-- Sending the command goes on to its buffer. -/
theorem sendAqDesc_ends (h : Unanswered m st) :
    Interaction.Always (ExchangeEnds map m desc)
      ((mappedPlatform map xmit tailAtLimit).sendAqDesc desc st) := fun _ =>
  always_ite (fun _ => sendAqErr_ends map xmit desc h.view)
    fun _ => sendAqBuffer_ends map xmit desc (h.call rfl rfl rfl rfl)

/-- Whatever the socket calls return, an exchange ends in one of the two ways. -/
theorem e1000SendAqCmd_ends (h : Unanswered m st) :
    Interaction.Always (ExchangeEnds map m desc)
      ((mappedPlatform map xmit tailAtLimit).e1000SendAqCmd desc st) := by
  refine always_ite (fun _ fs => ?_) fun _ => sendAqDesc_ends map xmit desc h
  exact always_ite (fun _ => sendAqErr_ends map xmit desc h.view)
    fun _ => sendAqDesc_ends map xmit desc (h.call rfl rfl rfl rfl)

/-- The command is carried out: the descriptor to write back and the queue are those of the
outcome. -/
def CarriedOut (map : MemoryMap) (m : Machine) (desc : AqDesc) (result : AqDesc × Mapped) : Prop :=
  result.1 = (Outcome.of result.2.calls).writtenDesc desc ∧
    result.2.Shows (map.queueAfter m ((Outcome.of result.2.calls).copies map m desc))

/-- The queue in the machine is the one before the tail write. -/
theorem Mapped.sameQueue (hview : st.view = m.queueView) : SameQueue st.machine m := by
  simp only [SameQueue, viewed, List.forall_mem_cons]
  exact ⟨congrArg QueueView.head hview, congrArg QueueView.len hview,
    congrArg QueueView.tctl hview, congrArg QueueView.tdh hview, congrArg QueueView.tdt hview,
    fun _ hmem => absurd hmem List.not_mem_nil⟩

/-- The echo copies the buffer back to where it was read. -/
theorem e1000AqEcho_copies (hview : st.view = m.queueView) (hdatalen : desc.datalen ≠ 0) :
    Interaction.Always (fun result => result.1 = desc ∧ result.2.calls = st.calls ∧
        result.2.Shows (map.queueAfter m [(desc.bufferAddr,
          (readPieces (map.pieces desc.bufferAddr desc.datalen.toNat) m).1)]))
      ((mappedPlatform map xmit tailAtLimit).e1000AqEcho desc st) := by
  let pieces := map.pieces desc.bufferAddr desc.datalen.toNat
  let start := st.machine.allocated.allocated
  have hbytes (m : Machine) : (readPieces pieces m).1.length = desc.datalen.toNat :=
    readPieces_length map desc.bufferAddr desc.datalen.toNat m
  have hload : ((st.machine.allocated.heap 0).store (readPieces pieces start).1).load
      desc.datalen.toNat = (readPieces pieces start).1 := by
    rw [← hbytes start, Region.load_store]
  refine always_ite (fun _ => ?_) fun h => absurd hdatalen h
  change Interaction.Always _ (((mappedPlatform map xmit tailAtLimit).memoryWrite desc.bufferAddr
    (((st.machine.allocated.heap 0).store (readPieces pieces start).1).load desc.datalen.toNat) >>=
      fun _ => pure desc) { st with machine := (readPieces pieces start).2 })
  rw [always_sequence, hload]
  refine (memoryWrite_writes map xmit _ _ _).mono fun result h => ⟨rfl, h.calls, ?_⟩
  have hqueue : SameQueue start m := Mapped.sameQueue hview
  have hsame : map.queueAfter m [(desc.bufferAddr, (readPieces pieces start).1)] =
      map.queueAfter m [(desc.bufferAddr, (readPieces pieces m).1)] := by
    simp only [MemoryMap.queueAfter, MemoryMap.registerWrites, List.flatMap_cons, List.flatMap_nil,
      List.append_nil, hbytes]
    exact accesses_readPieces hqueue pieces m.queueView
  rw [← hsame]
  exact h.queueAfter ((readPieces_view pieces { st with machine := start } st.calls).trans hview)

/-- The device's own part of a command changes the descriptor and copies the echoed buffer. -/
theorem processAqCmd_copies (hview : st.view = m.queueView) :
    Interaction.Always (fun result => result.2.calls = st.calls ∧
        { result.1 with flags := result.1.flags ||| flagDD } = completed desc ∧
        result.2.Shows (map.queueAfter m (Outcome.failed.copies map m desc)))
      ((mappedPlatform map xmit tailAtLimit).processAqCmd desc st) := by
  have hkeeps (h : ¬ (AqOpcode.ofCode desc.opcode = some .echo ∧ desc.datalen ≠ 0)) :
      st.Shows (map.queueAfter m (Outcome.failed.copies map m desc)) := by
    rw [Outcome.copies, if_neg h]
    exact fun _ => hview
  unfold AqPlatform.processAqCmd completed processed
  cases hop : AqOpcode.ofCode desc.opcode with
  | none => exact ⟨rfl, rfl, hkeeps (by simp [hop])⟩
  | some opcode =>
    cases opcode with
    | getVersion => exact ⟨rfl, rfl, hkeeps (by simp [hop])⟩
    | driverHeartbeat => exact ⟨rfl, rfl, hkeeps (by simp [hop])⟩
    | echo =>
      by_cases hdatalen : desc.datalen = 0
      · refine always_ite (fun h => absurd hdatalen h) fun _ => ⟨rfl, rfl, hkeeps ?_⟩
        exact fun h => h.2 hdatalen
      · refine (e1000AqEcho_copies map xmit desc hview hdatalen).mono ?_
        rintro ⟨desc', st'⟩ ⟨rfl, hcalls, hqueue⟩
        refine ⟨hcalls, rfl, ?_⟩
        rw [Outcome.copies, if_pos ⟨hop, hdatalen⟩]
        exact hqueue

/-- A failed exchange leaves the command to the device. -/
theorem settleAqCmd_carriesOut (hview : st.view = m.queueView)
    (hfailed : Outcome.of st.calls = .failed) :
    Interaction.Always (CarriedOut map m desc)
      ((mappedPlatform map xmit tailAtLimit).settleAqCmd (-1) desc st) := by
  refine always_ite (fun _ => ?_) fun h => absurd (by decide : (-1 : Int) < 0) h
  rw [always_sequence]
  refine (processAqCmd_copies map xmit desc hview).mono ?_
  rintro ⟨desc', st'⟩ ⟨hcalls, hdesc, hqueue⟩
  have houtcome : Outcome.of st'.calls = .failed := by rw [hcalls, hfailed]
  refine ⟨?_, ?_⟩
  · exact hdesc.trans (congrArg (Outcome.writtenDesc desc) houtcome).symm
  · rwa [houtcome]

/-- Carrying out a command has the effect of its outcome. -/
theorem executeAqCmd_carriesOut (h : Unanswered m st) :
    Interaction.Always (CarriedOut map m desc)
      ((mappedPlatform map xmit tailAtLimit).executeAqCmd desc st) := by
  rw [AqPlatform.executeAqCmd, always_sequence]
  refine (e1000SendAqCmd_ends map xmit desc h).mono ?_
  rintro ⟨⟨rc, desc'⟩, st'⟩
    (⟨hresult, hfailed, hview⟩ | ⟨response, returned, hresult, hanswered, hview⟩)
  · cases hresult
    exact settleAqCmd_carriesOut map xmit desc hview hfailed
  · cases hresult
    refine ⟨?_, ?_⟩
    · exact (congrArg (Outcome.writtenDesc desc) hanswered).symm
    · change st'.Shows (map.queueAfter m ((Outcome.of st'.calls).copies map m desc))
      rwa [hanswered]

end Exchange

end VirtualFirmware.Device
