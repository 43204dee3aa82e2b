import VirtualFirmware.Device.MacReads
import VirtualFirmware.Library.Keeps

/-!
# Guest memory that contains the device's registers

`cpu_physical_memory_rw` goes through a range piece by piece: what lies in RAM is copied, what
lies in the device's register window becomes accesses of four, two or one bytes to its
handlers, and what lies nowhere has no effect. A write that reaches `PF_ATQT` calls the tail
handler from within itself; how deep this may go is limited here by a number, and running into
the limit is recorded. A write that reaches `TCTL` or `TDT` starts a transmission, which reads and
writes guest memory of its own; nothing is assumed about what it does.
-/

namespace VirtualFirmware.Device

open Library Messaging Adminq

/-- `TARGET_PAGE_SIZE`. -/
def pageSize : ℕ := 0x1000

/-- Where the register window is, and which of the other pages are RAM. -/
structure MemoryMap where
  bar : UInt64
  isRam : ℕ → Bool
  aligned : bar.toNat % pnpmmioSize = 0

/-- A part of a range that is accessed at once. -/
inductive Piece where
  | ram (addr : UInt64) (count : ℕ)
  | mmio (offset width : ℕ)
  | unassigned (width : ℕ)
deriving DecidableEq, Repr

/-- How many bytes of the range a piece has. -/
def Piece.length : Piece → ℕ
  | .ram _ count => count
  | .mmio _ width => width
  | .unassigned width => width

/-- The widest access that fits the bytes left and the address. -/
def accessWidth (left addr : ℕ) : ℕ :=
  if left ≥ 4 ∧ addr % 4 = 0 then 4 else if left ≥ 2 ∧ addr % 2 = 0 then 2 else 1

/-- The first piece of a range; no piece goes beyond its page. -/
def MemoryMap.piece (map : MemoryMap) (addr : UInt64) (len : ℕ) : Piece :=
  let l := min len (pageSize - addr.toNat % pageSize)
  let offset := (addr - map.bar).toNat
  if offset < pnpmmioSize then .mmio offset (accessWidth l offset)
  else if map.isRam (addr.toNat / pageSize) then .ram addr l
  else .unassigned (accessWidth l addr.toNat)

/-- The pieces of a range, at most `fuel` many. -/
def MemoryMap.piecesLoop (map : MemoryMap) : (fuel : ℕ) → UInt64 → ℕ → List Piece
  | 0, _, _ => []
  | fuel + 1, addr, len =>
    if len = 0 then []
    else
      let piece := map.piece addr len
      piece :: map.piecesLoop fuel (addr + UInt64.ofNat piece.length) (len - piece.length)

/-- The pieces of a range; each has at least one byte. -/
@[irreducible] def MemoryMap.pieces (map : MemoryMap) (addr : UInt64) (len : ℕ) : List Piece :=
  map.piecesLoop len addr len

/-- What a transmission does: it looks at the machine, changes it, and may write to `PF_ATQT`. -/
inductive XmitOp where
  | machine
  | setMachine (m : Machine)
  | setAtqTail (val : UInt32)

/-- What it gets in return. -/
abbrev XmitReply : XmitOp → Type
  | .machine => Machine
  | .setMachine _ => Unit
  | .setAtqTail _ => Unit

/-- What `start_xmit` does from its first descriptor on. Its descriptors and buffers are at any
addresses of the guest's choice, so this is any program. -/
abbrev Transmit := Interaction XmitOp XmitReply Unit

/-- The machine, the socket calls made so far with their replies, and whether the tail handler was
called at the limit. -/
structure Mapped where
  machine : Machine
  calls : List (Sigma DeviceReply)
  cutOff : Bool

/-- Device code on such a machine. -/
abbrev MappedM := StateT Mapped (Interaction DeviceOp DeviceReply)

/-- Change the machine. -/
def onMachine (f : Machine → Machine) : MappedM Unit := fun st =>
  .pure ((), { st with machine := f st.machine })

/-- Perform one socket call. -/
def mappedCall (op : DeviceOp) : MappedM (DeviceReply op) := fun st =>
  .perform op fun reply => .pure (reply, { st with calls := st.calls ++ [⟨op, reply⟩] })

/-- A step of a transmission, given the tail handler. -/
def XmitOp.handle (tail : UInt32 → MappedM Unit) : (op : XmitOp) → MappedM (XmitReply op)
  | .machine => fun st => .pure (st.machine, st)
  | .setMachine m => onMachine fun _ => m
  | .setAtqTail val => tail val

/-- `E1000_TCTL_EN`. -/
def tctlEn : UInt32 := 2

/-- `E1000_ICS_TXQE`. -/
def icsTxqe : UInt32 := 2

/-- `start_xmit`, up to its first descriptor. -/
def startXmitMapped (xmit : Transmit) (tail : UInt32 → MappedM Unit) : MappedM Unit := fun st =>
  if st.machine.dev.macReg MacReg.tctl.index &&& tctlEn = 0 then .pure ((), st)
  else if st.machine.dev.macReg MacReg.tdh.index ≠ st.machine.dev.macReg MacReg.tdt.index then
    xmit.interpret (XmitOp.handle tail) st
  else onMachine (fun m => { m with dev := setIcs m.dev 0 icsTxqe }) st

/-- The device once `set_tctl` has stored the value. -/
def E1000State.tctlSet (dev : E1000State) (index : ℕ) (val : UInt32) : E1000State :=
  (dev.setMac index val).setMac MacReg.tdt.index
    ((dev.setMac index val).macReg MacReg.tdt.index &&& 0xffff)

/-- Call the handler of a register. -/
def WriteOp.runMapped (xmit : Transmit) (tail : UInt32 → MappedM Unit) :
    WriteOp → ℕ → UInt32 → MappedM Unit
  | .device handler, index, val => onMachine fun m => { m with dev := handler m.dev index val }
  | .setTctl, index, val => do
    onMachine fun m => { m with dev := m.dev.tctlSet index val }
    startXmitMapped xmit tail
  | .e1000SetAtqTail, _, val => tail val

section Writes

variable (xmit : Transmit) (tail : UInt32 → MappedM Unit)

/-- A write to a register. -/
def registerWrite (index : ℕ) (val : UInt32) : MappedM Unit :=
  match writeopOf index with
  | some op => op.runMapped xmit tail index val
  | none => pure ()

/-- The register and the value that an access stores: `e1000_mmio_writel`, or `e1000_mmio_writew`
and `e1000_mmio_writeb`, which put the value at its place in the word. -/
def registerAccess (offset width : ℕ) (bytes : List UInt8) : ℕ × UInt32 :=
  if width = 4 then (regIndex offset, UInt32.ofNat (leNat bytes))
  else (regIndex (offset - offset % 4),
    UInt32.ofNat (leNat bytes) <<< UInt32.ofNat (8 * (offset % 4)))

/-- Write one piece. -/
def Piece.write (bytes : List UInt8) : Piece → MappedM Unit
  | .ram addr _ => onMachine fun m => { m with ram := m.ram.write addr bytes }
  | .mmio offset width =>
    let (index, val) := registerAccess offset width bytes
    registerWrite xmit tail index val
  | .unassigned _ => pure ()

/-- Write one piece after another. -/
def writePieces : List Piece → List UInt8 → MappedM Unit
  | [], _ => pure ()
  | piece :: rest, bytes => do
    piece.write xmit tail (bytes.take piece.length)
    writePieces rest (bytes.drop piece.length)

end Writes

/-- Read one piece. -/
def Piece.read : Piece → Machine → List UInt8 × Machine
  | .ram addr count, m => (m.ram.read addr count, m)
  | .mmio offset width, m =>
    let (val, dev) := if width = 4 then e1000MmioReadl offset m.dev
      else if width = 2 then e1000MmioReadw offset m.dev else e1000MmioReadb offset m.dev
    (leBytes width val.toNat, { m with dev })
  | .unassigned width, m => (List.replicate width 0, m)

/-- Read one piece after another. -/
def readPieces : List Piece → Machine → List UInt8 × Machine
  | [], m => ([], m)
  | piece :: rest, m =>
    let (bytes, m) := piece.read m
    let (others, m) := readPieces rest m
    (bytes ++ others, m)

/-- The machine whose guest memory contains the register window. -/
def mappedPlatform (map : MemoryMap) (xmit : Transmit) (tail : UInt32 → MappedM Unit) :
    AqPlatform MappedM where
  dev st := .pure (st.machine.dev, st)
  setMacReg index value := onMachine fun m => { m with dev := m.dev.setMac index value }
  setFs fs := onMachine fun m => { m with dev := m.dev.withFs fs }
  note event := onMachine fun m => { m with trace := m.trace ++ [event] }
  fdbg _ := pure ()
  qemuMalloc size st :=
    .pure (some ⟨st.machine.heap 0, mallocSize size⟩, { st with machine := st.machine.allocated })
  memoryRead addr count st :=
    let (bytes, machine) := readPieces (map.pieces addr count) st.machine
    .pure (bytes, { st with machine })
  memoryWrite addr bytes := writePieces xmit tail (map.pieces addr bytes.length) bytes
  locate := mappedCall .locate
  close fs := mappedCall (.close fs)
  senddata fs buffer length := mappedCall (.message fs (.senddata buffer.contents length))
  recvdata fs buffer length := mappedCall (.message fs (.recvdata buffer.contents length))

/-- `e1000_set_atq_tail` with at most `depth` calls inside each other. -/
def mappedTail (map : MemoryMap) (xmit : Transmit) : (depth : ℕ) → UInt32 → MappedM Unit
  | 0, _ => fun st => .pure ((), { st with cutOff := true })
  | depth + 1, val =>
    (mappedPlatform map xmit (mappedTail map xmit depth)).e1000SetAtqTail pfAtqt val

end VirtualFirmware.Device
