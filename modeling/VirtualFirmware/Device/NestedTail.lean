import VirtualFirmware.Device.DmaWrites
import VirtualFirmware.Device.PlatformRelation

/-!
# Tail handlers inside each other

An invariant that every operation of the platform keeps is kept by the functions of the admin
queue. So it stays on record, through everything that follows, that the tail handler was called at
the limit. With a head slot at `PF_ATQT` and a firmware that answers with zeros every limit is
reached.
-/

namespace VirtualFirmware.Device

open Library Messaging Adminq

/-- The tail handler was called at the limit. -/
def CutOff (st : Mapped) : Prop := st.cutOff = true

section CutOff

variable (map : MemoryMap) (xmit : Transmit) {tail : UInt32 → MappedM Unit}
  (htail : ∀ val, Keeps CutOff (tail val))

include htail

/-- A transmission keeps the record. -/
theorem startXmitMapped_cutOff : Keeps CutOff (startXmitMapped xmit tail) := by
  intro st h
  unfold startXmitMapped
  split_ifs
  · exact h
  · refine Keeps.interpret (fun op => ?_) xmit st h
    cases op with
    | machine => exact fun _ h => h
    | setMachine m => exact fun _ h => h
    | setAtqTail val => exact htail val
  · exact h

/-- A register write keeps the record. -/
theorem registerWrite_cutOff (index : ℕ) (val : UInt32) :
    Keeps CutOff (registerWrite xmit tail index val) := by
  unfold registerWrite
  cases writeopOf index with
  | none => exact .pure _
  | some op =>
    cases op with
    | device handler => exact fun _ h => h
    | setTctl => exact Keeps.bind (fun _ h => h) fun _ => startXmitMapped_cutOff xmit htail
    | e1000SetAtqTail => exact htail val

/-- Writing pieces keeps the record. -/
theorem writePieces_cutOff (pieces : List Piece) (bytes : List UInt8) :
    Keeps CutOff (writePieces xmit tail pieces bytes) := by
  induction pieces generalizing bytes with
  | nil => exact .pure _
  | cons piece rest ih =>
    refine Keeps.bind ?_ fun _ => ih _
    cases piece with
    | ram addr count => exact fun _ h => h
    | mmio offset width => exact registerWrite_cutOff xmit htail _ _
    | unassigned width => exact .pure _

/-- Every operation of the machine keeps the record. -/
theorem mappedPlatform_cutOff : (mappedPlatform map xmit tail).Related
    (ProgramRelation.keeps CutOff) (mappedPlatform map xmit tail) where
  dev _ h := h
  setMacReg _ _ _ h := h
  setFs _ _ h := h
  note _ _ h := h
  fdbg _ _ h := h
  qemuMalloc _ _ h := h
  memoryRead _ _ _ h := h
  memoryWrite _ _ := writePieces_cutOff xmit htail _ _
  locate _ h _ := h
  close _ _ h _ := h
  senddata _ _ _ _ h _ := h
  recvdata _ _ _ _ h _ := h

end CutOff

/-- A tail write keeps the record, however deep it goes. -/
theorem mappedTail_cutOff (map : MemoryMap) (xmit : Transmit) (depth : ℕ) (val : UInt32) :
    Keeps CutOff (mappedTail map xmit depth val) := by
  induction depth generalizing val with
  | zero => exact fun _ _ => rfl
  | succ depth ih => exact (mappedPlatform_cutOff map xmit ih).e1000SetAtqTail pfAtqt val

/-- A firmware that answers every command with a descriptor of zeros. -/
def zeroAnswers : (op : DeviceOp) → DeviceReply op
  | .locate => 3
  | .close _ => ()
  | .message _ (.senddata _ _) => { rc := 0 }
  | .message _ (.recvdata _ length) => { rc := 0, data := fun _ => 0, length }

section ZeroAnswers

variable (map : MemoryMap) (xmit : Transmit) (tail : UInt32 → MappedM Unit) (desc : AqDesc)

/-- The exchange returned the descriptor of zeros and left the queue's registers alone. -/
def ZeroAnswered (st : Mapped) (result : (Int × AqDesc) × Mapped) : Prop :=
  result.1 = (0, AqDesc.zero) ∧
    ∀ reg, InQueue reg → result.2.machine.dev.macReg reg = st.machine.dev.macReg reg

/-- The command's buffer is sent and the descriptor of zeros comes back. -/
theorem sendAqBuffer_zero (st : Mapped) :
    ZeroAnswered st
      (((mappedPlatform map xmit tail).sendAqBuffer desc st).resolve zeroAnswers) := by
  change ZeroAnswered st (((if desc.datalen > 0 then _ else
    (mappedPlatform map xmit tail).recvAqResponse desc : MappedM _) st).resolve zeroAnswers)
  split
  · exact ⟨rfl, fun reg h => readPieces_macReg (.inl h) _ _⟩
  · exact ⟨rfl, fun _ _ => rfl⟩

/-- Connected or not, the command is sent and the descriptor of zeros comes back. -/
theorem e1000SendAqCmd_zero (st : Mapped) :
    ZeroAnswered st
      (((mappedPlatform map xmit tail).e1000SendAqCmd desc st).resolve zeroAnswers) := by
  change ZeroAnswered st (((if st.machine.dev.fs = invalidSocket then _ else
    (mappedPlatform map xmit tail).sendAqDesc desc : MappedM _) st).resolve zeroAnswers)
  split
  · exact sendAqBuffer_zero map xmit tail desc _
  · exact sendAqBuffer_zero map xmit tail desc _

/-- The descriptor of zeros is what will be written back. -/
theorem executeAqCmd_zero (st : Mapped) :
    (((mappedPlatform map xmit tail).executeAqCmd desc st).resolve zeroAnswers).1 = AqDesc.zero ∧
      ∀ reg, InQueue reg → (((mappedPlatform map xmit tail).executeAqCmd desc st).resolve
        zeroAnswers).2.machine.dev.macReg reg = st.machine.dev.macReg reg := by
  obtain ⟨hresult, hregs⟩ := e1000SendAqCmd_zero map xmit tail desc st
  rw [AqPlatform.executeAqCmd, resolve_sequence, hresult]
  exact ⟨rfl, hregs⟩

end ZeroAnswers

/-- The offset of `PF_ATQT` in the register window. -/
def tailOffset : UInt64 := 0x6010

/-- A range that is not empty has a first piece. -/
theorem MemoryMap.pieces_cons (map : MemoryMap) (addr : UInt64) {len : ℕ} (h : 0 < len) :
    ∃ rest, map.pieces addr len = map.piece addr len :: rest := by
  obtain ⟨n, rfl⟩ := Nat.exists_eq_succ_of_ne_zero h.ne'
  simp only [MemoryMap.pieces, MemoryMap.piecesLoop, Nat.succ_ne_zero, if_false, List.cons.injEq,
    true_and, exists_eq']

/-- A range at `PF_ATQT` starts with an access to the register. -/
theorem MemoryMap.piece_tail (map : MemoryMap) :
    map.piece (map.bar + tailOffset) AqDesc.size = .mmio 0x6010 4 := by
  have haligned := map.aligned
  have hoffset : (map.bar + tailOffset - map.bar).toNat = 0x6010 := by
    rw [UInt64.add_comm, UInt64.add_sub_cancel]
    rfl
  have hpage : (map.bar + tailOffset).toNat % pageSize = 0x10 := by
    rw [UInt64.toNat_add]
    change (map.bar.toNat + 0x6010) % 2 ^ 64 % 0x1000 = 0x10
    change map.bar.toNat % 0x20000 = 0 at haligned
    omega
  unfold MemoryMap.piece
  rw [hoffset, hpage]
  rfl

/-- The head slot follows from the queue's registers. -/
theorem headSlot_congr {m m' : Machine}
    (h : ∀ reg, InQueue reg → reg ≠ pfAtqt → m'.dev.macReg reg = m.dev.macReg reg) :
    m'.headSlot = m.headSlot := by
  simp only [Machine.headSlot, E1000State.ring, h pfAtqbah (by decide) (by decide),
    h pfAtqbal (by decide) (by decide), h pfAtqlen (by decide) (by decide),
    h pfAtqh (by decide) (by decide)]

/-- With a head slot at `PF_ATQT` and a firmware that answers with zeros, the handler calls itself
without end: whatever the limit is, it is reached. -/
theorem mappedTail_endless (map : MemoryMap) (xmit : Transmit) (depth : ℕ) (val : UInt32)
    (st : Mapped) (h : st.machine.headSlot = map.bar + tailOffset) :
    CutOff ((mappedTail map xmit depth val st).resolve zeroAnswers).2 := by
  induction depth generalizing val st with
  | zero => rfl
  | succ depth ih =>
    obtain ⟨m, calls, cutOff⟩ := st
    have hkeeps := mappedPlatform_cutOff map xmit (mappedTail_cutOff map xmit depth)
    obtain ⟨hdesc, hregs⟩ :=
      executeAqCmd_zero map xmit (mappedTail map xmit depth) (map.fetchedDesc m val)
      ⟨map.fetchedMachine m val, calls, cutOff⟩
    change CutOff (((mappedPlatform map xmit (mappedTail map xmit depth)).e1000SetAtqTail pfAtqt val
      ⟨m, calls, cutOff⟩).resolve zeroAnswers).2
    rw [mappedTail_eq, resolve_sequence, hdesc]
    generalize (((mappedPlatform map xmit (mappedTail map xmit depth)).executeAqCmd
        (map.fetchedDesc m val)
      ⟨map.fetchedMachine m val, calls, cutOff⟩).resolve zeroAnswers).2 = st at hregs ⊢
    have hslot : st.machine.headSlot = m.headSlot := headSlot_congr fun reg hreg hne =>
      (hregs reg hreg).trans
        ((readPieces_macReg (.inl hreg) _ _).trans (m.dev.setMac_of_ne val hne))
    refine Keeps.resolve_sequence ?_ fun _ =>
      Keeps.bind hkeeps.dev fun _ => Keeps.bind (hkeeps.note _) fun _ => hkeeps.advanceHead
    -- the first access of the writeback is a write to `PF_ATQT`
    change CutOff ((writePieces xmit (mappedTail map xmit depth) (map.pieces m.headSlot AqDesc.size)
      AqDesc.zero.bytes st).resolve zeroAnswers).2
    obtain ⟨rest, hpieces⟩ := map.pieces_cons m.headSlot (by decide : 0 < AqDesc.size)
    have hpiece : map.piece m.headSlot AqDesc.size = .mmio 0x6010 4 := h ▸ map.piece_tail
    rw [hpieces, hpiece]
    refine Keeps.resolve_sequence ?_ fun _ =>
      writePieces_cutOff xmit (mappedTail_cutOff map xmit depth) _ _
    exact ih 0 st (hslot.trans h)

end VirtualFirmware.Device
