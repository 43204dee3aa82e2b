import VirtualFirmware.Device.SlotResult
import VirtualFirmware.Driver.AdminqCmd
import VirtualFirmware.Firmware.Loop

/-!
# The version numbers

The firmware puts a major and a minor number into each of two parameters, and the driver takes
them out again through four pointers. `e1000_adminq_cmd` hands over the pointers in another
order than `e1000_aq_get_firmware_version` takes them, so that minor and major are exchanged.
-/

namespace VirtualFirmware.Driver

open Library Adminq Device

/-- Two numbers in one parameter, as `e1000_aq_get_version` puts them there. -/
def packHalves (low high : UInt16) : UInt32 := low.toUInt32 ||| high.toUInt32 <<< 16

/-- The low half of a packed pair is read back. -/
@[simp] theorem packHalves_low (low high : UInt16) :
    (packHalves low high &&& 0xffff).toUInt16 = low := by
  have hmask : (0xffff : UInt32).toUInt16 = -1 := rfl
  rw [UInt32.toUInt16_and, hmask, UInt16.and_neg_one, packHalves]
  apply UInt16.toBitVec_inj.mp
  ext i hi
  simp

/-- The high half of a packed pair is read back. -/
@[simp] theorem packHalves_high (low high : UInt16) :
    (packHalves low high >>> 16).toUInt16 = high := by
  apply UInt16.toBitVec_inj.mp
  ext i hi
  have hhigh : 16 + i < 32 := by omega
  have hlow : i < 32 := by omega
  simp [packHalves, hhigh, hlow, BitVec.getLsbD_eq_getElem hi]

/-- The descriptor carries these numbers, major in the low half, minor in the high half. -/
structure Packs (desc : AqDesc) (numbers : Versions) : Prop where
  param0 : desc.param0 = packHalves numbers.fwMaj numbers.fwMin
  param1 : desc.param1 = packHalves numbers.apiMaj numbers.apiMin

/-- The numbers of the firmware. -/
def firmwareVersions : Versions := { fwMin := 0x13, fwMaj := 0x34, apiMin := 0xaf, apiMaj := 0xfa }

/-- The firmware packs its numbers like this, and so does the device. -/
theorem getVersion_packs (desc : AqDesc) :
    Packs (Firmware.e1000AqGetVersion desc) firmwareVersions ∧
      Packs (Device.e1000AqGetVersion desc) firmwareVersions :=
  ⟨⟨rfl, rfl⟩, ⟨rfl, rfl⟩⟩

/-- The descriptor is the completion of a request for the version, with these numbers. -/
structure CompletesVersion (desc : AqDesc) (numbers : Versions) :
    Prop extends Packs desc numbers where
  done : desc.Done
  retval : desc.retval = rcOK

/-- Every request for the version that is completed with these numbers leaves each of them in its
variable of the same name. -/
def VersionsNamed (startXmit : Machine → Machine) (aq : AdminqInfo) (m : Machine)
    (numbers : Versions) : Prop :=
  ∀ cookie stackbuf vars, Interaction.Always
    (fun result => CompletesVersion (descAt result.2.ram aq.slot) numbers → result.1.1 = numbers)
    (e1000AdminqCmd startXmit cookie stackbuf vars 1 aq m)

/-- The numbers with minor and major exchanged. -/
def Versions.exchanged (numbers : Versions) : Versions :=
  { fwMin := numbers.fwMaj, fwMaj := numbers.fwMin, apiMin := numbers.apiMaj, apiMaj :=
    numbers.apiMin }

section Versions

variable (startXmit : Machine → Machine) (aq : AdminqInfo) (m : Machine)

/-- A completed request for the version is decoded with minor and major exchanged. -/
theorem decoded_completed (vars numbers : Versions) (call : AsqCall) (desc : AqDesc)
    (slot bufAddr : UInt64) (ram : AddressSpace) (h : CompletesVersion (descAt ram slot) numbers) :
    decoded vars (collected call desc slot bufAddr ram) = numbers.exchanged := by
  rw [collected, if_pos h.done, decoded, Versions.storeAnswer, if_pos h.retval]
  simp only [h.param0, h.param1, packHalves_low, packHalves_high]
  rfl

/-- Whatever the exchange does, the numbers it completes the request with end up exchanged. -/
theorem e1000AdminqCmd_exchanged (cookie : UInt64) (stackbuf : Region) (vars numbers : Versions) :
    Interaction.Always
      (fun result => CompletesVersion (descAt result.2.ram aq.slot) numbers →
        result.1.1 = numbers.exchanged)
      (e1000AdminqCmd startXmit cookie stackbuf vars 1 aq m) := by
  rw [e1000AdminqCmd_eq, Interaction.always_bind]
  exact (e1000SetAtqTail_written _ _).mono fun written _ hcompletes =>
    decoded_completed vars numbers _ _ _ _ _ hcompletes

/-- The answer of a firmware that has these numbers. -/
def versionAnswer (numbers : Versions) : AqDesc :=
  { flags := flagDD
    opcode := 1
    datalen := 0
    retval := rcOK
    cookieHigh := 0
    cookieLow := 0
    param0 := packHalves numbers.fwMaj numbers.fwMin
    param1 := packHalves numbers.apiMaj numbers.apiMin
    addrHigh := 0
    addrLow := 0 }

variable {aq m} {served : ℕ}

/-- A firmware that has these numbers completes the request with them. -/
theorem InStep.completesVersion (h : InStep aq m served) (cookie : UInt64) (stackbuf : Region)
    (vars numbers : Versions) :
    CompletesVersion (descAt ((e1000AdminqCmd startXmit cookie stackbuf vars 1 aq m).resolve
      (answering (versionAnswer numbers))).2.ram aq.slot) numbers := by
  have hslot : (posted aq (versionCall cookie) m).headSlot = aq.slot := h.headSlot
  have hcommand : command aq (versionCall cookie) m = (versionCall cookie).marked :=
    command_direct aq m rfl
  have hdesc : (posted aq (versionCall cookie) m).headDesc.datalen = 0 := by
    rw [Machine.headDesc, hslot]
    exact congrArg AqDesc.datalen hcommand
  have hanswered := e1000SetAtqTail_answering (posted aq (versionCall cookie) m) hdesc
    (show (versionAnswer numbers).datalen = 0 from rfl) aq.bumped.nextToUse.toUInt32
  have hdescAt : descAt ((e1000AdminqCmd startXmit cookie stackbuf vars 1 aq m).resolve
      (answering (versionAnswer numbers))).2.ram aq.slot = versionAnswer numbers := by
    rw [e1000AdminqCmd_eq, Interaction.resolve_bind, ← hslot]
    exact (congrArg AqDesc.ofBytes hanswered).trans (AqDesc.ofBytes_bytes _)
  rw [hdescAt]
  exact ⟨⟨rfl, rfl⟩, show (flagDD &&& flagDD) ≠ 0 by decide, rfl⟩

/-- The exchange shows exactly when a minor and a major number differ. -/
theorem Versions.exchanged_eq_iff (numbers : Versions) :
    numbers.exchanged = numbers ↔ numbers.fwMaj = numbers.fwMin ∧
      numbers.apiMaj = numbers.apiMin := by
  obtain ⟨fwMin, fwMaj, apiMin, apiMaj⟩ := numbers
  simp only [exchanged, mk.injEq]
  constructor
  · rintro ⟨hfw, -, hapi, -⟩
    exact ⟨hfw, hapi⟩
  · rintro ⟨hfw, hapi⟩
    exact ⟨hfw, hfw.symm, hapi, hapi.symm⟩

/-- The numbers arrive under their names exactly when minor and major are equal. -/
theorem InStep.versionsNamed_iff (h : InStep aq m served) (numbers : Versions) :
    VersionsNamed startXmit aq m numbers ↔
      numbers.fwMaj = numbers.fwMin ∧ numbers.apiMaj = numbers.apiMin := by
  rw [← Versions.exchanged_eq_iff]
  constructor
  · intro hnamed
    have hcompletes := h.completesVersion startXmit 0 (fun _ => 0) numbers numbers
    exact ((e1000AdminqCmd_exchanged startXmit aq m 0 (fun _ => 0) numbers numbers).resolve
      _ hcompletes).symm.trans
      ((hnamed 0 (fun _ => 0) numbers).resolve _ hcompletes)
  · intro hself cookie stackbuf vars
    exact (e1000AdminqCmd_exchanged startXmit aq m cookie stackbuf vars numbers).mono
      fun result hresult hcompletes => (hresult hcompletes).trans hself

end Versions

end VirtualFirmware.Driver
