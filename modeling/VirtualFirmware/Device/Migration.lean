import VirtualFirmware.Device.Vmstate

/-!
# Which registers survive saving and loading

What is loaded has the source's value in every saved register and the target's in every
other. The list names every register the guest can write except the five of the admin queue,
so these come back as zero.
-/

namespace VirtualFirmware.Device

open Library

/-- The source's configuration space may be loaded into the target. -/
def PciDevice.Accepts (target source : PciDevice) : Prop :=
  ¬ source.versionId.toInt32 < target.versionId.toInt32 ∧
    pciConfigDiffers target ((List.range pciConfigSpaceSize).map source.config) = false

instance (target source : PciDevice) : Decidable (target.Accepts source) :=
  inferInstanceAs (Decidable (_ ∧ _))

/-- A device accepts its own configuration space. -/
theorem PciDevice.accepts_self (pci : PciDevice) : pci.Accepts pci := by
  refine ⟨Int32.lt_irrefl, List.any_eq_false.mpr fun i hi => ?_⟩
  have hown : ((List.range pciConfigSpaceSize).map pci.config).getD i 0 = pci.config i := by
    rw [List.getD_eq_getElem?_getD, List.getElem?_map, List.getElem?_range (List.mem_range.mp hi)]
    rfl
  rw [hown]
  simp

/-- A saved pin is loaded as it was. -/
theorem loadPin_encode (pin : Bool) (rest : List UInt8) :
    loadPin (Codec.be32.encode (if pin then 1 else 0) ++ rest) = some (pin, rest) := by
  rw [loadPin, Codec.read_encode]
  cases pin <;> rfl

/-- The saved configuration space is loaded whole, and the registers stay. -/
theorem loadPci_savePci {source target : E1000Device} (h : target.pci.Accepts source.pci)
    (rest : List UInt8) : ∃ d, loadPci (savePci source ++ rest) target = some (d, rest) ∧
      d.state.macReg = target.state.macReg := by
  have hlen : ((List.range pciConfigSpaceSize).map source.pci.config).length =
      pciConfigSpaceSize := by
    rw [List.length_map, List.length_range]
  have hzero := loadPin_encode false
  simp only [Bool.false_eq_true, if_false] at hzero
  simp only [savePci, loadPci, List.flatMap_cons, List.flatMap_nil, List.append_nil,
    List.append_assoc, Codec.read_encode, Option.bind_eq_bind, Option.bind_some,
    List.take_left' hlen, List.drop_left' hlen,
    if_neg h.1, h.2, List.length_append, hlen, loadPin_encode, hzero]
  simp

/-- The field of a register copies it. -/
theorem macField_copies (index : ℕ) : (macField index).Copies fun s => s.macReg index :=
  fun source target => target.setMac_self index (source.macReg index)

/-- The field of another register leaves it. -/
theorem macField_leaves {index i : ℕ} (h : i ≠ index) :
    (macField index).Leaves fun s => s.macReg i :=
  fun source target => target.setMac_of_ne (source.macReg index) h

/-- A field copies registers of the MAC only if it is the field of a saved register. -/
theorem vmstateE1000_cases {versionId : ℕ} {field : SavedField E1000State}
    (h : field ∈ vmstateE1000 versionId) :
    field.Leaves E1000State.macReg ∨ ∃ index ∈ savedMacRegs, macField index = field := by
  have hscalar : ∀ field ∈ scalarFields, field.Leaves E1000State.macReg := by
    simp only [scalarFields, List.forall_mem_cons]
    and_intros <;> first | exact fun _ _ => rfl | exact fun _ h => absurd h List.not_mem_nil
  have harray : ∀ field ∈ arrayFields, field.Leaves E1000State.macReg := by
    simp only [arrayFields, SavedField.array, List.forall_mem_append, List.forall_mem_map]
    exact ⟨⟨⟨fun _ _ _ _ => rfl, fun _ _ _ _ => rfl⟩, fun _ _ _ _ => rfl⟩, fun _ _ _ _ => rfl⟩
  rw [vmstateE1000, List.mem_append, List.mem_append, List.mem_append, List.mem_map] at h
  rcases h with ((hunused | h) | h) | h
  · split at hunused
    · rw [List.mem_singleton.mp hunused]
      exact .inl fun _ _ => rfl
    · exact absurd hunused List.not_mem_nil
  · exact .inl (hscalar field h)
  · exact .inl (harray field h)
  · exact .inr h

section Restored

variable {versionId index : ℕ} (source target : E1000State)

/-- A saved register comes back as it was. -/
theorem restored_macReg_of_mem (h : index ∈ savedMacRegs) :
    (SavedField.restored (vmstateE1000 versionId) source target).macReg index =
      source.macReg index := by
  refine SavedField.restored_of_copies (fun s : E1000State => s.macReg index)
    ⟨macField index, ?_, macField_copies index⟩ fun field hfield => ?_
  · exact List.mem_append_right _ (List.mem_map_of_mem h)
  · rcases vmstateE1000_cases hfield with hleaves | ⟨other, -, rfl⟩
    · exact .inr fun source target => congrFun (hleaves source target) index
    · by_cases hother : index = other
      · exact .inl (hother ▸ macField_copies index)
      · exact .inr (macField_leaves hother)

/-- A register that is not saved is the one of the device that loads. -/
theorem restored_macReg_of_not_mem (h : index ∉ savedMacRegs) :
    (SavedField.restored (vmstateE1000 versionId) source target).macReg index =
      target.macReg index := by
  refine SavedField.restored_of_leaves (fun s : E1000State => s.macReg index) fun field hfield => ?_
  rcases vmstateE1000_cases hfield with hleaves | ⟨other, hmem, rfl⟩
  · exact fun source target => congrFun (hleaves source target) index
  · exact macField_leaves fun heq => h (heq ▸ hmem)

end Restored

/-- The registers of the admin queue. -/
def atqRegs : List ℕ := [pfAtqbah, pfAtqbal, pfAtqlen, pfAtqh, pfAtqt]

/-- A saved register is one of the scalars or lies in one of the arrays. -/
theorem mem_savedMacRegs {index : ℕ} : index ∈ savedMacRegs ↔
    (∃ reg ∈ savedMacScalars, reg.index = index) ∨
      ∃ array ∈ savedMacArrays, array.1.index ≤ index ∧ index < array.1.index + array.2 := by
  simp only [savedMacRegs, List.mem_append, List.mem_map, List.mem_flatMap, List.mem_range'_1]

/-- A register of the admin queue has an entry, is not saved, and is zero after a reset. -/
theorem atqRegs_lost : ∀ index ∈ atqRegs,
    (writeopOf index).isSome ∧ index ∉ savedMacRegs ∧ macRegInit index = 0 := by
  simp only [mem_savedMacRegs]
  decide +kernel

/-- Every other register with an entry is saved. -/
theorem savedMacRegs_of_writeopOf {index : ℕ} (h : (writeopOf index).isSome)
    (hatq : index ∉ atqRegs) :
    index ∈ savedMacRegs := by
  have hentries : ∀ entry ∈ macregWriteops,
      (entry.first = entry.last ∧
        (entry.first ∈ atqRegs ∨ ∃ reg ∈ savedMacScalars, reg.index = entry.first)) ∨
      ∃ array ∈ savedMacArrays, array.1.index = entry.first ∧
        entry.last + 1 = entry.first + array.2 := by
    decide +kernel
  rw [writeopOf, Option.isSome_map, List.find?_isSome] at h
  obtain ⟨entry, hmem, hcovers⟩ := h
  obtain ⟨hfirst, hlast⟩ : entry.Covers index := of_decide_eq_true hcovers
  rw [mem_savedMacRegs]
  rcases hentries entry hmem with ⟨hone, hkind⟩ | ⟨array, harray, hstart, hend⟩
  · obtain rfl : entry.first = index := by omega
    exact .inl (hkind.resolve_left hatq)
  · exact .inr ⟨array, harray, by omega, by omega⟩

/-- The device, initialised and reset. -/
def E1000Device.reset (d : E1000Device) : E1000Device := { d with state := e1000Reset d.state }

/-- Saving the source and loading it into the target succeeds and gives every register that has an
entry in `macreg_writeops` its value back. -/
def Preserved (source target : E1000Device) : Prop :=
  ∃ d, loadE1000 2 (saveE1000 source) target = some (d, []) ∧
    ∀ index, (writeopOf index).isSome → d.state.macReg index = source.state.macReg index

/-- The registers after a load are those of the source where they are saved, and the target's where
they are not. -/
def Restores (source target state : E1000State) : Prop :=
  (∀ index ∈ savedMacRegs, state.macReg index = source.macReg index) ∧
    ∀ index ∉ savedMacRegs, state.macReg index = target.macReg index

/-- Loading the fields that were saved consumes them all and restores the registers. -/
theorem load_vmstateE1000 (versionId : ℕ) (source target : E1000State) :
    ∃ state, SavedField.load (vmstateE1000 versionId)
        (SavedField.save (vmstateE1000 versionId) source) target = some (state, []) ∧
      Restores source target state := by
  have hload := SavedField.load_save (vmstateE1000 versionId) source target []
  rw [List.append_nil] at hload
  exact ⟨_, hload, fun _ => restored_macReg_of_mem source target,
    fun _ => restored_macReg_of_not_mem source target⟩

/-- Loading what was saved consumes it all and restores the registers. -/
theorem loadE1000_saveE1000 {source target : E1000Device} (h : target.pci.Accepts source.pci) :
    ∃ d, loadE1000 2 (saveE1000 source) target = some (d, []) ∧
      Restores source.state target.state d.state := by
  obtain ⟨d, hpci, hmac⟩ := loadPci_savePci h (SavedField.save (vmstateE1000 2) source.state)
  obtain ⟨state, hload, hsaved, hunsaved⟩ := load_vmstateE1000 2 source.state d.state
  refine ⟨⟨d.pci, state⟩, ?_, hsaved, hmac ▸ hunsaved⟩
  rw [loadE1000, saveE1000, if_neg (by decide)]
  exact Option.bind_eq_some_iff.mpr
    ⟨(d, _), hpci, Option.bind_eq_some_iff.mpr ⟨(state, []), hload, rfl⟩⟩

section Reset

variable {source target : E1000Device}

/-- A load into a device that was reset leaves zero in the registers of the admin queue. -/
theorem Restores.atqRegs {state : E1000State} (h : Restores source.state target.reset.state state)
    {index : ℕ} (hatq : index ∈ atqRegs) : state.macReg index = 0 := by
  obtain ⟨-, hmem, hzero⟩ := atqRegs_lost index hatq
  exact (h.2 index hmem).trans hzero

/-- If the registers come back, those of the admin queue were zero. -/
theorem Preserved.atqRegs (hpci : target.reset.pci.Accepts source.pci)
    (h : Preserved source target.reset) : ∀ index ∈ atqRegs, source.state.macReg index = 0 := by
  obtain ⟨d, hload, hrestores⟩ := loadE1000_saveE1000 hpci
  obtain ⟨d', hload', hsame⟩ := h
  obtain rfl : d = d' := by simpa [hload] using hload'
  intro index hatq
  rw [← hsame index (atqRegs_lost index hatq).1, hrestores.atqRegs hatq]

/-- Loading into a device that was reset gives the registers with an entry back exactly if those of
the admin queue were zero. -/
theorem preserved_iff (hpci : target.reset.pci.Accepts source.pci) :
    Preserved source target.reset ↔ ∀ index ∈ atqRegs, source.state.macReg index = 0 := by
  refine ⟨Preserved.atqRegs hpci, fun hzero => ?_⟩
  obtain ⟨d, hload, hrestores⟩ := loadE1000_saveE1000 hpci
  refine ⟨d, hload, fun index hentry => ?_⟩
  by_cases hatq : index ∈ atqRegs
  · rw [hrestores.atqRegs hatq, hzero index hatq]
  · exact hrestores.1 index (savedMacRegs_of_writeopOf hentry hatq)

end Reset

/-- A device that has no socket yet. -/
def initialDevice : E1000Device := ⟨default, (default : E1000State).withFs invalidSocket⟩

/-- The device after a reset and a write to one register. -/
def writtenDevice (index : ℕ) (val : UInt32) : E1000Device :=
  { initialDevice with state := (e1000Reset initialDevice.state).setMac index val }

/-- The configuration space of the written device is the initial one. -/
theorem initialDevice_accepts (index : ℕ) (val : UInt32) :
    initialDevice.reset.pci.Accepts (writtenDevice index val).pci :=
  initialDevice.pci.accepts_self

/-- The base of the transmit ring comes back. -/
theorem transmit_base_preserved :
    Preserved (writtenDevice MacReg.tdbal.index 0x2000) initialDevice.reset :=
  (preserved_iff (initialDevice_accepts _ _)).mpr (by decide +kernel)

/-- The machines to which register writes of the guest lead from a reset. -/
inductive GuestReachable (startXmit : Machine → Machine) : Machine → Prop
  | reset (m : Machine) : GuestReachable startXmit { m with dev := e1000Reset m.dev }
  | write {m m' : Machine} (addr : ℕ) (val : UInt32) (before : GuestReachable startXmit m)
      (done : (e1000MmioWritel startXmit addr val m).Returns ((), m')) : GuestReachable startXmit m'

/-- A machine with this device. -/
def machineOf (d : E1000Device) : Machine := { (default : Machine) with dev := d.state }

/-- One write to `PF_ATQBAL` after a reset, and the base of the ring does not come back. -/
theorem admin_base_lost :
    (∀ startXmit, GuestReachable startXmit (machineOf (writtenDevice pfAtqbal 0x1000))) ∧
      ¬ Preserved (writtenDevice pfAtqbal 0x1000) initialDevice.reset := by
  refine ⟨fun startXmit => ?_, fun h => ?_⟩
  · refine .write 0x6004 0x1000 (.reset (machineOf initialDevice)) ?_
    have hop : writeopOf (regIndex 0x6004) = some (.device macWritereg) := rfl
    rw [e1000MmioWritel, hop]
    exact .pure _
  · have hzero := h.atqRegs (initialDevice_accepts _ _) pfAtqbal (by decide)
    exact absurd hzero (by decide +kernel)

end VirtualFirmware.Device
