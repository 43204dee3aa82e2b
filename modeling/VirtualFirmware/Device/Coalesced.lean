import VirtualFirmware.Device.MacWrites
import VirtualFirmware.Device.RingSemantics
import VirtualFirmware.Library.PostedWrites

/-!
# Register writes that the hypervisor coalesces

`e1000_mmio_map` has the hypervisor collect writes to all registers but the listed ones and
deliver them later, in order. The registers of the admin queue are not listed, so a tail
write can be delivered after the guest has stored to RAM again, and the device then fetches
what stands in the slot by that time. As long as the guest does not store while a tail
write waits, the delay cannot be seen.
-/

namespace VirtualFirmware.Device

open Library Adminq

/-- `excluded_regs`: the registers whose writes are delivered at once, and the window's end. -/
def excludedRegs : List ℕ :=
  [MacReg.mdic, .icr, .ics, .ims, .imc, .tctl, .tdt].map MacReg.offset ++ [pnpmmioSize]

/-- A range of addresses in the window. -/
structure Zone where
  start : ℕ
  size : ℕ
deriving DecidableEq, Repr

/-- The ranges between excluded registers, up to the window's end. -/
def zonesAfter : List ℕ → List Zone
  | reg :: next :: rest =>
    if reg = pnpmmioSize then [] else ⟨reg + 4, next - reg - 4⟩ :: zonesAfter (next :: rest)
  | _ => []

/-- `e1000_mmio_map`: the ranges it registers as coalesced. -/
def e1000MmioMap : List Zone := ⟨0, excludedRegs.headI⟩ :: zonesAfter excludedRegs

/-- A guest's 32-bit write to an address of the window. -/
structure MmioWrite where
  addr : ℕ
  val : UInt32
deriving DecidableEq, Repr

/-- The whole write falls into a coalesced range. -/
def MmioWrite.coalesced (write : MmioWrite) : Bool :=
  e1000MmioMap.any fun zone => zone.start ≤ write.addr && write.addr + 4 ≤ zone.start + zone.size

/-- A guest's store to its RAM. -/
structure RamStore where
  addr : UInt64
  bytes : List UInt8
deriving DecidableEq, Repr

/-- The machine and whatever is behind its sockets. -/
structure World (S : Type) where
  machine : Machine
  env : S

/-- The descriptors that were fetched and handed to `e1000_send_aq_cmd`, in order. -/
def Machine.fetchedDescs (m : Machine) : List AqDesc :=
  m.trace.filterMap fun event =>
    match event with
    | .fetched _ _ desc => some desc
    | _ => none

/-- What the guest's view of the admin queue consists of: the descriptors fetched, and RAM. -/
def World.seen {S : Type} (world : World S) : List AqDesc × AddressSpace :=
  (world.machine.fetchedDescs, world.machine.ram)

section Coalescing

variable {S : Type} (startXmit : Machine → Machine)
  (handle : (op : DeviceOp) → S → Option (DeviceReply op × S))

/-- The machine under the guest's actions: the device handles a register write against what is
behind its sockets, a store changes RAM. -/
def mmio : PostedWrites MmioWrite RamStore (World S) where
  apply write world :=
    ((e1000MmioWritel startXmit write.addr write.val world.machine).runWith handle world.env).map
      fun result => ⟨result.1.2, result.2⟩
  effect store world :=
    { world with
      machine := { world.machine with ram := world.machine.ram.write store.addr store.bytes } }
  posted := MmioWrite.coalesced

/-- With the writes delivered as the moves say, and the rest at the end, the guest sees what it
would see with every write delivered at once. -/
def Transparent (moves : List (Move MmioWrite RamStore)) (world : World S) : Prop :=
  (((mmio startXmit handle).run moves ⟨[], world⟩).bind (mmio startXmit handle).settled).map
      World.seen =
    ((mmio startXmit handle).immediate (Move.actions moves) world).map World.seen

/-- The guest makes no store while a tail write waits. -/
def TailNotOvertaken (moves : List (Move MmioWrite RamStore)) : Prop :=
  (mmio startXmit handle).Undisturbed (fun _ write => regIndex write.addr ≠ pfAtqt) [] moves

variable {startXmit handle}

/-- A coalesced write does not start a transmission. -/
theorem MmioWrite.coalesced_index {write : MmioWrite} (h : write.coalesced) :
    regIndex write.addr ≠ MacReg.tctl.index ∧ regIndex write.addr ≠ MacReg.tdt.index := by
  obtain ⟨zone, hzone, hinside⟩ := List.any_eq_true.mp h
  simp only [Bool.and_eq_true, decide_eq_true_eq] at hinside
  simp only [e1000MmioMap, excludedRegs, MacReg.offset, pnpmmioSize, zonesAfter, List.map_cons,
    List.map_nil, List.cons_append, List.nil_append, List.headI_cons, List.mem_cons] at hzone
  simp only [regIndex, MacReg.index, defreg, MacReg.offset]
  rcases hzone with rfl | hzone
  · simp only at hinside
    omega
  · simp only [Nat.reduceEqDiff, if_false, Nat.reduceAdd, Nat.reduceSub, List.mem_cons,
      List.not_mem_nil, or_false] at hzone
    rcases hzone with rfl | rfl | rfl | rfl | rfl | rfl | rfl
    all_goals
      simp only at hinside
      omega

/-- A store commutes with every coalesced write but a tail write. -/
theorem mmio_commutes (store : RamStore) {write : MmioWrite} (hposted : write.coalesced)
    (htail : regIndex write.addr ≠ pfAtqt) : (mmio startXmit handle).Commutes write store := by
  intro world
  obtain ⟨htctl, htdt⟩ := write.coalesced_index hposted
  simp only [mmio, e1000MmioWritel]
  cases hop : writeopOf (regIndex write.addr) with
  | none => rfl
  | some op =>
    obtain ⟨handler, rfl⟩ := writeopOf_device hop htctl htdt htail
    rfl

/-- In every run in which the guest makes no store while a tail write waits, the delay of
register writes cannot be seen. -/
theorem coalescing_transparent {moves : List (Move MmioWrite RamStore)}
    (h : TailNotOvertaken startXmit handle moves) (world : World S) :
    Transparent startXmit handle moves world := by
  have hcommutes (store : RamStore) (write : MmioWrite) (hposted : write.coalesced)
      (htail : regIndex write.addr ≠ pfAtqt) : (mmio startXmit handle).Commutes write store :=
    mmio_commutes store hposted htail
  have hsettled := PostedWrites.run_settled hcommutes (q := ⟨[], world⟩)
    (fun _ hmem => nomatch hmem) h
  rw [Transparent, hsettled]
  rfl

end Coalescing

/-- Behind the sockets there is nothing. -/
def refusing (op : DeviceOp) (env : Unit) : Option (DeviceReply op × Unit) := some (refused op, env)

/-- The guest's write of one to the tail register. -/
def tailWriteOne : MmioWrite := ⟨0x6010, 1⟩

/-- A command stored before the tail write, and a second store after it was delivered. -/
theorem delivered_tail_transparent :
    Transparent id refusing
      [.act (.effect ⟨0, [0xff]⟩), .act (.write tailWriteOne), .deliver,
        .act (.effect ⟨32, [0xff]⟩)]
      ⟨default, ()⟩ := by
  apply coalescing_transparent
  have hposted : (mmio id refusing).posted tailWriteOne = true := by decide
  simp [TailNotOvertaken, PostedWrites.Undisturbed, PostedWrites.queueAfter, hposted]

/-- A tail write fetches one more descriptor, the one at the head. -/
theorem TailWritten.fetchedDescs {m m' : Machine} {val : UInt32} (h : TailWritten m val m') :
    m'.fetchedDescs = m.fetchedDescs ++ [m.headDesc] := by
  obtain ⟨desc, answers, htrace, hanswers⟩ := h.trace
  rw [Machine.fetchedDescs, htrace, List.filterMap_append]
  rcases hanswers with ⟨rfl, -⟩ | rfl <;> rfl

/-- The tail write of one, on a machine whose exchanges are refused, is made and fetches the
descriptor at the head. -/
theorem mmio_tailWriteOne (world : World Unit) :
    ∃ after, (mmio id refusing).apply tailWriteOne world = some after ∧
      after.machine.fetchedDescs = world.machine.fetchedDescs ++ [world.machine.headDesc] := by
  refine ⟨⟨((e1000SetAtqTail pfAtqt 1 world.machine).resolve refused).2, ()⟩, ?_, ?_⟩
  · change ((e1000SetAtqTail pfAtqt 1 world.machine).runWith refusing world.env).map _ = _
    rw [show refusing = fun op env => some (refused op, env) from rfl, Interaction.runWith_resolve]
    rfl
  · exact ((e1000SetAtqTail_written 1 world.machine).resolve refused).fetchedDescs

/-- A store that overtakes the tail write changes the descriptor that is fetched. -/
theorem overtaken_tail_not_transparent :
    ¬ Transparent id refusing
      [.act (.write tailWriteOne), .act (.effect ⟨0, [0xff]⟩), .deliver] ⟨default, ()⟩ := by
  intro h
  obtain ⟨early, hearly, hfetched⟩ := mmio_tailWriteOne ⟨default, ()⟩
  obtain ⟨late, hlate, hfetched'⟩ :=
    mmio_tailWriteOne ((mmio id refusing).effect ⟨0, [0xff]⟩ ⟨default, ()⟩)
  have hposted : (mmio id refusing).posted tailWriteOne = true := by decide
  simp only [Transparent, PostedWrites.run, PostedWrites.move, PostedWrites.immediate,
    PostedWrites.perform, PostedWrites.settled, PostedWrites.flush, Move.actions, hposted, hearly,
    hlate, if_true, List.nil_append, Option.bind_some, Option.map_some, Option.some.injEq,
    World.seen, Prod.mk.injEq] at h
  have hdescs : late.machine.fetchedDescs = early.machine.fetchedDescs := h.1
  rw [hfetched, hfetched'] at hdescs
  revert hdescs
  decide

end VirtualFirmware.Device
