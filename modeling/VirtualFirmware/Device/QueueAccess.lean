import VirtualFirmware.Device.QueueRegs
import VirtualFirmware.Library.Keeps

/-!
# The admin queue under writes to guest memory

Writing a range of guest memory is a number of register writes as far as the admin queue is
concerned, and what follows for its head and length is a fold over them, until one of them has the
transmit path take a descriptor. Reading changes nothing, and what reading a range returns for the
registers that matter depends on these alone.
-/

namespace VirtualFirmware.Device

open Library

/-- What the accesses to the register window do to the queue: its head, its length, and whether its
tail was written. The registers of the transmit path decide whether it takes a descriptor. -/
structure QueueView where
  head : UInt32
  len : UInt32
  tailWritten : Bool
  tctl : UInt32
  tdh : UInt32
  tdt : UInt32
  transmits : Bool
deriving DecidableEq, Repr

/-- `start_xmit` is called; it takes a descriptor if it is enabled and the ring is not empty. -/
def QueueView.startXmit (q : QueueView) : QueueView :=
  { q with transmits := q.transmits || (q.tctl &&& tctlEn ≠ 0 && q.tdh ≠ q.tdt) }

/-- One register is written. -/
def QueueView.access (q : QueueView) (write : ℕ × UInt32) : QueueView :=
  if write.1 = pfAtqt then { q with tailWritten := true }
  else if write.1 = pfAtqh then { q with head := write.2 }
  else if write.1 = pfAtqlen then { q with len := write.2 }
  else if write.1 = MacReg.tdh.index then { q with tdh := write.2 &&& 0xffff }
  else if write.1 = MacReg.tctl.index then
    { q with tctl := write.2, tdt := q.tdt &&& 0xffff }.startXmit
  else if write.1 = MacReg.tdt.index then { q with tdt := write.2 &&& 0xffff }.startXmit
  else q

/-- The register write that writing a piece causes. -/
def Piece.access (bytes : List UInt8) : Piece → List (ℕ × UInt32)
  | .mmio offset width => [registerAccess offset width bytes]
  | .ram _ _ => []
  | .unassigned _ => []

/-- The register writes that writing the pieces causes. -/
def accesses : List Piece → List UInt8 → List (ℕ × UInt32)
  | [], _ => []
  | piece :: rest, bytes =>
    piece.access (bytes.take piece.length) ++ accesses rest (bytes.drop piece.length)

/-- The queue as a machine has it. -/
def Mapped.view (st : Mapped) : QueueView where
  head := st.machine.dev.macReg pfAtqh
  len := st.machine.dev.macReg pfAtqlen
  tailWritten := st.cutOff
  tctl := st.machine.dev.macReg MacReg.tctl.index
  tdh := st.machine.dev.macReg MacReg.tdh.index
  tdt := st.machine.dev.macReg MacReg.tdt.index
  transmits := false

/-- The registers that the view shows. -/
def viewed : List ℕ :=
  [pfAtqh, pfAtqlen, MacReg.tctl.index, MacReg.tdh.index, MacReg.tdt.index]

/-- Two machines in which these registers are the same. -/
def SameQueue (m m' : Machine) : Prop := ∀ reg ∈ viewed, m.dev.macReg reg = m'.dev.macReg reg

/-- These registers are watched. -/
theorem watched_of_viewed : ∀ reg ∈ viewed, Watched reg := by decide

/-- Machines in which these registers are the same have the same queue. -/
theorem SameQueue.view {m m' : Machine} (h : SameQueue m m')
    (calls calls' : List (Sigma DeviceReply)) (cutOff : Bool) :
    Mapped.view ⟨m, calls, cutOff⟩ = Mapped.view ⟨m', calls', cutOff⟩ := by
  simp only [Mapped.view, h pfAtqh (by decide), h pfAtqlen (by decide),
    h MacReg.tctl.index (by decide), h MacReg.tdh.index (by decide), h MacReg.tdt.index (by decide)]

/-- The tail handler at the limit. -/
def tailAtLimit : UInt32 → MappedM Unit := fun _ st => .pure ((), { st with cutOff := true })

/-- The machine has this queue, unless the transmit path took a descriptor. -/
def Mapped.Shows (st : Mapped) (q : QueueView) : Prop := q.transmits = false → st.view = q

/-- The effect on the queue is that of these register writes, and no call is made. -/
structure Writes (writes : List (ℕ × UInt32)) (st st' : Mapped) : Prop where
  shows : st'.Shows (writes.foldl QueueView.access st.view)
  calls : st'.calls = st.calls

/-- Where `start_xmit` takes no descriptor nothing changes. -/
theorem QueueView.startXmit_of_quiet {q : QueueView} (h : q.startXmit.transmits = false) :
    q.startXmit = q := by
  rw [QueueView.startXmit, (Bool.or_eq_false_iff.mp h).2, Bool.or_false]

/-- It stays on record that the transmit path took a descriptor. -/
theorem QueueView.access_transmits {q : QueueView} (write : ℕ × UInt32)
    (h : (q.access write).transmits = false) : q.transmits = false := by
  unfold QueueView.access at h
  split_ifs at h
  · exact h
  · exact h
  · exact h
  · exact h
  · exact (Bool.or_eq_false_iff.mp h).1
  · exact (Bool.or_eq_false_iff.mp h).1
  · exact h

/-- A write to another register than `PF_ATQT` and those that are shown does nothing. -/
theorem QueueView.access_of_not_viewed (q : QueueView) {index : ℕ} (htail : index ≠ pfAtqt)
    (hindex : index ∉ viewed) (val : UInt32) : q.access (index, val) = q := by
  simp only [viewed, List.mem_cons, List.not_mem_nil, or_false, not_or] at hindex
  simp only [QueueView.access, htail, hindex, if_false]

/-- It stays on record through any number of writes. -/
theorem foldl_access_transmits {writes : List (ℕ × UInt32)} {q : QueueView}
    (h : (writes.foldl QueueView.access q).transmits = false) : q.transmits = false := by
  induction writes generalizing q with
  | nil => exact h
  | cons write rest ih => exact QueueView.access_transmits write (ih h)

namespace Writes

variable {first second : List (ℕ × UInt32)} {st st' st'' : Mapped}

/-- Two lists of register writes, made one after the other, are their concatenation. -/
theorem trans (h : Writes first st st') (h' : Writes second st' st'') :
    Writes (first ++ second) st st'' := by
  refine ⟨fun hquiet => ?_, h'.calls.trans h.calls⟩
  rw [List.foldl_append] at hquiet ⊢
  have hfirst := h.shows (foldl_access_transmits hquiet)
  rw [← hfirst] at hquiet ⊢
  exact h'.shows hquiet

end Writes

section Simulation

variable (xmit : Transmit)

/-- A transmission makes no socket call of its own. -/
theorem interpret_calls (calls : List (Sigma DeviceReply)) :
    Keeps (fun st => st.calls = calls) (xmit.interpret (XmitOp.handle tailAtLimit)) := by
  refine Keeps.interpret (fun op => ?_) xmit
  cases op with
  | machine => exact fun _ h => h
  | setMachine m => exact fun _ h => h
  | setAtqTail val => exact fun _ h => h

/-- `start_xmit` leaves the queue alone unless it takes a descriptor. -/
theorem startXmitMapped_shows (st : Mapped) :
    Interaction.Always (fun result => result.2.Shows st.view.startXmit ∧ result.2.calls = st.calls)
      (startXmitMapped xmit tailAtLimit st) := by
  have hidle {st' : Mapped} (hview : st'.view = st.view) : st'.Shows st.view.startXmit :=
    fun hquiet => hview.trans (QueueView.startXmit_of_quiet hquiet).symm
  unfold startXmitMapped
  split_ifs with hdisabled hring
  · exact ⟨hidle rfl, rfl⟩
  · refine (interpret_calls xmit st.calls st rfl).mono fun result hcalls =>
      ⟨fun hquiet => ?_, hcalls⟩
    have htakes : st.view.startXmit.transmits = true := by
      change (decide _ && decide _) = true
      exact Bool.and_eq_true_iff.mpr ⟨decide_eq_true hdisabled, decide_eq_true hring⟩
    exact absurd (htakes.symm.trans hquiet) (by decide)
  · have hset {reg : ℕ} (h : Watched reg) :
        (setIcs st.machine.dev 0 icsTxqe).macReg reg = st.machine.dev.macReg reg := setIcs_macReg h
    have hsame : SameQueue { st.machine with dev := setIcs st.machine.dev 0 icsTxqe } st.machine :=
      fun reg hreg => hset (watched_of_viewed reg hreg)
    exact ⟨hidle (hsame.view _ _ _), rfl⟩

/-- A write to another register than `PF_ATQT` and those that are shown leaves the queue alone. -/
theorem registerWrite_of_not_viewed {index : ℕ} (htail : index ≠ pfAtqt) (hindex : index ∉ viewed)
    (val : UInt32) (st : Mapped) :
    Interaction.Always (fun result => result.2.view = st.view ∧ result.2.calls = st.calls)
      (registerWrite xmit tailAtLimit index val st) := by
  have hne {reg : ℕ} (hreg : reg ∈ viewed) : reg ≠ index := fun heq => hindex (heq ▸ hreg)
  unfold registerWrite
  cases hop : writeopOf index with
  | none => exact ⟨rfl, rfl⟩
  | some op =>
    obtain ⟨handler, rfl⟩ :=
      writeopOf_device hop (hne (by decide)).symm (hne (by decide)).symm htail
    obtain ⟨entry, hfind, hentry⟩ := Option.map_eq_some_iff.mp hop
    have hkeeps := macregWriteops_keepsQueue entry (List.mem_of_find?_eq_some hfind)
    rw [hentry] at hkeeps
    have hsame : SameQueue { st.machine with dev := handler st.machine.dev index val } st.machine :=
      fun reg hreg => hkeeps _ _ _ _ (watched_of_viewed reg hreg) (hne hreg)
    exact ⟨hsame.view _ _ _, rfl⟩

/-- A write to a register has its effect on the queue. -/
theorem registerWrite_writes (index : ℕ) (val : UInt32) (st : Mapped) :
    Interaction.Always (fun result => Writes [(index, val)] st result.2)
      (registerWrite xmit tailAtLimit index val st) := by
  by_cases htail : index = pfAtqt
  · subst htail
    exact ⟨fun _ => rfl, rfl⟩
  by_cases hviewed : index ∈ viewed
  · simp only [viewed, List.mem_cons, List.not_mem_nil, or_false] at hviewed
    rcases hviewed with rfl | rfl | rfl | rfl | rfl
    · exact ⟨fun _ => rfl, rfl⟩
    · exact ⟨fun _ => rfl, rfl⟩
    -- `TCTL` and `TDT` call `start_xmit` once they are stored
    · exact (startXmitMapped_shows xmit _).mono fun _ h => ⟨h.1, h.2⟩
    · exact ⟨fun _ => rfl, rfl⟩
    · exact (startXmitMapped_shows xmit _).mono fun _ h => ⟨h.1, h.2⟩
  · refine (registerWrite_of_not_viewed xmit htail hviewed val st).mono fun result h =>
      ⟨fun _ => ?_, h.2⟩
    rw [h.1, List.foldl_cons, List.foldl_nil, st.view.access_of_not_viewed htail hviewed]

/-- Writing a piece has the effect of its register write. -/
theorem Piece.write_writes (piece : Piece) (bytes : List UInt8) (st : Mapped) :
    Interaction.Always (fun result => Writes (piece.access bytes) st result.2)
      (piece.write xmit tailAtLimit bytes st) := by
  cases piece with
  | ram addr count => exact ⟨fun _ => rfl, rfl⟩
  | mmio offset width => exact registerWrite_writes xmit _ _ st
  | unassigned width => exact ⟨fun _ => rfl, rfl⟩

/-- Writing pieces has the effect of their register writes. -/
theorem writePieces_writes (pieces : List Piece) (bytes : List UInt8) (st : Mapped) :
    Interaction.Always (fun result => Writes (accesses pieces bytes) st result.2)
      (writePieces xmit tailAtLimit pieces bytes st) := by
  induction pieces generalizing bytes st with
  | nil => exact ⟨fun _ => rfl, rfl⟩
  | cons piece rest ih =>
    rw [writePieces, always_sequence]
    refine (piece.write_writes xmit _ st).mono fun result h => ?_
    exact (ih _ result.2).mono fun _ h' => h.trans h'

end Simulation

/-- Reading a piece returns its bytes. -/
@[simp] theorem Piece.read_length (piece : Piece) (m : Machine) :
    (piece.read m).1.length = piece.length := by
  cases piece with
  | ram addr count => exact m.ram.read_length addr count
  | mmio offset width => exact leBytes_length width _
  | unassigned width => exact List.length_replicate

/-- Reading a piece changes none of the watched registers. -/
theorem Piece.read_macReg {reg : ℕ} (h : Watched reg) (piece : Piece) (m : Machine) :
    (piece.read m).2.dev.macReg reg = m.dev.macReg reg := by
  cases piece with
  | ram addr count => rfl
  | mmio offset width =>
    unfold Piece.read
    dsimp only
    split
    · exact e1000MmioReadl_macReg h _ _
    · split
      · exact e1000MmioReadl_macReg h _ _
      · exact e1000MmioReadl_macReg h _ _
  | unassigned width => rfl

/-- Reading pieces changes none of the watched registers. -/
theorem readPieces_macReg {reg : ℕ} (h : Watched reg) (pieces : List Piece) (m : Machine) :
    (readPieces pieces m).2.dev.macReg reg = m.dev.macReg reg := by
  induction pieces generalizing m with
  | nil => rfl
  | cons piece rest ih => exact (ih _).trans (piece.read_macReg h m)

/-- The registers that are shown are read as they are. -/
theorem readopOf_viewed : ∀ reg ∈ viewed, readopOf reg = some macReadreg := by
  simp only [viewed, List.forall_mem_cons]
  exact ⟨rfl, rfl, rfl, rfl, rfl, fun _ hmem => absurd hmem List.not_mem_nil⟩

/-- What a plain register reads as. -/
theorem e1000MmioReadl_value {addr reg : ℕ} (hop : readopOf reg = some macReadreg)
    (h : regIndex addr = reg) (s : E1000State) : (e1000MmioReadl addr s).1 = s.macReg reg := by
  unfold e1000MmioReadl
  rw [h, hop]
  rfl

/-- An access to a plain register reads the same on machines where the register is the same. -/
theorem Piece.read_mmio {m m' : Machine} {offset width reg : ℕ}
    (hop : readopOf reg = some macReadreg) (h : m.dev.macReg reg = m'.dev.macReg reg)
    (hreg : (registerAccess offset width []).1 = reg) :
    ((Piece.mmio offset width).read m).1 = ((Piece.mmio offset width).read m').1 := by
  unfold registerAccess at hreg
  unfold Piece.read
  dsimp only
  by_cases hwidth : width = 4
  · rw [if_pos hwidth] at hreg
    rw [if_pos hwidth, if_pos hwidth, e1000MmioReadl_value hop hreg,
      e1000MmioReadl_value hop hreg, h]
  · rw [if_neg hwidth] at hreg
    have hvalue (s : E1000State) := e1000MmioReadl_value hop hreg s
    simp only [if_neg hwidth, e1000MmioReadw, e1000MmioReadb, apply_ite Prod.fst, hvalue, h]

/-- The register that is accessed does not depend on the value. -/
theorem registerAccess_fst (offset width : ℕ) (bytes : List UInt8) :
    (registerAccess offset width bytes).1 = (registerAccess offset width []).1 := by
  unfold registerAccess
  split <;> rfl

/-- Writing back what was read from a piece has the same effect on the queue for machines whose
queues are the same. -/
theorem Piece.access_read {m m' : Machine} (h : SameQueue m m') (piece : Piece) (q : QueueView) :
    (piece.access (piece.read m).1).foldl QueueView.access q =
      (piece.access (piece.read m').1).foldl QueueView.access q := by
  cases piece with
  | ram addr count => rfl
  | mmio offset width =>
    simp only [Piece.access, List.foldl_cons, List.foldl_nil]
    by_cases hviewed : (registerAccess offset width []).1 ∈ viewed
    · rw [Piece.read_mmio (readopOf_viewed _ hviewed) (h _ hviewed) rfl]
    by_cases htail : (registerAccess offset width []).1 = pfAtqt
    · simp only [QueueView.access, registerAccess_fst, htail, if_true]
    have hother (bytes : List UInt8) : q.access (registerAccess offset width bytes) = q := by
      have hindex := registerAccess_fst offset width bytes
      exact q.access_of_not_viewed (hindex ▸ htail) (hindex ▸ hviewed) _
    rw [hother, hother]
  | unassigned width => rfl

/-- Writing back what was read has the same effect on the queue for machines whose queues are the
same. -/
theorem accesses_readPieces {m m' : Machine} (h : SameQueue m m') (pieces : List Piece)
    (q : QueueView) :
    (accesses pieces (readPieces pieces m).1).foldl QueueView.access q =
      (accesses pieces (readPieces pieces m').1).foldl QueueView.access q := by
  induction pieces generalizing m m' q with
  | nil => rfl
  | cons piece rest ih =>
    have hsplit (m : Machine) : accesses (piece :: rest) (readPieces (piece :: rest) m).1 =
        piece.access (piece.read m).1 ++ accesses rest (readPieces rest (piece.read m).2).1 := by
      simp only [accesses, readPieces, List.take_left' (piece.read_length m),
        List.drop_left' (piece.read_length m)]
    have hnext : SameQueue (piece.read m).2 (piece.read m').2 := fun reg hreg => by
      have hwatched := watched_of_viewed reg hreg
      rw [piece.read_macReg hwatched, piece.read_macReg hwatched, h reg hreg]
    rw [hsplit, hsplit, List.foldl_append, List.foldl_append, piece.access_read h, ih hnext]

end VirtualFirmware.Device
