import VirtualFirmware.Driver.LockStep

/-!
# Commands that the driver makes up itself

`e1000_aq_get_firmware_version` asks for the version of the firmware and stores it through
four pointers, `e1000_aq_echo` sends a buffer around, and `e1000_adminq_cmd` starts one of
the two by number.
-/

namespace VirtualFirmware.Driver

open Library Adminq Device

/-- `E1000_AQ_RC_OK`. -/
def rcOK : UInt16 := 0

/-- `E1000_AQ_FLAG_EI`. -/
def flagEI : UInt16 := 0x4000

/-- `E1000_AQ_FLAG_FE`. -/
def flagFE : UInt16 := 0x8000

/-- `e1000_fill_default_direct_cmd_desc`, given the value of its static `cookie`. -/
def e1000FillDefaultDirectCmdDesc (cookie : UInt64) (opcode : UInt16) : AqDesc :=
  let cookie := cookie + 1
  let flags := if AqOpcode.ofCode opcode = some .driverHeartbeat then flagSI else 0
  { flags := flags ||| flagEI ||| flagFE
    opcode
    datalen := 0
    retval := 0
    cookieHigh := (cookie >>> 32).toUInt32
    cookieLow := (cookie &&& 0xffffffff).toUInt32
    param0 := 0
    param1 := 0
    addrHigh := 0
    addrLow := 0 }

/-- The four variables for the version of the firmware and of its interface. -/
structure Versions where
  fwMin : UInt16
  fwMaj : UInt16
  apiMin : UInt16
  apiMaj : UInt16
deriving DecidableEq, Repr

/-- The address of one of the four variables. -/
inductive VersionVar where
  | fwMin
  | fwMaj
  | apiMin
  | apiMaj
deriving DecidableEq, Repr

/-- Store a number through an address. -/
def Versions.store (vars : Versions) (value : UInt16) : VersionVar → Versions
  | .fwMin => { vars with fwMin := value }
  | .fwMaj => { vars with fwMaj := value }
  | .apiMin => { vars with apiMin := value }
  | .apiMaj => { vars with apiMaj := value }

/-- Store the numbers of a successful answer through four addresses. -/
def Versions.storeAnswer (vars : Versions) (result : AsqResult)
    (fwMajorVersion fwMinorVersion apiMajorVersion apiMinorVersion : VersionVar) : Versions :=
  if result.status = rcOK then
    let vars := vars.store (result.desc.param0 &&& 0xffff).toUInt16 fwMajorVersion
    let vars := vars.store (result.desc.param0 >>> 16).toUInt16 fwMinorVersion
    let vars := vars.store (result.desc.param1 &&& 0xffff).toUInt16 apiMajorVersion
    vars.store (result.desc.param1 >>> 16).toUInt16 apiMinorVersion
  else vars

/-- The request for the version that a cookie gives. -/
def versionCall (cookie : UInt64) : AsqCall :=
  { desc := e1000FillDefaultDirectCmdDesc cookie 1, buff := none, buffSize := 0 }

/-- A call that sends a buffer around. -/
def echoCall (cookie : UInt64) (buff : Region) (buffSize : UInt16) : AsqCall :=
  { desc := e1000FillDefaultDirectCmdDesc cookie 3, buff := some buff, buffSize }

section Driver

variable (startXmit : Machine → Machine)

/-- `e1000_aq_get_firmware_version`: the variables after the call. -/
def e1000AqGetFirmwareVersion (cookie : UInt64)
    (fwMajorVersion fwMinorVersion apiMajorVersion apiMinorVersion : VersionVar) (vars : Versions) :
    DriverM Versions := do
  let result ← e1000AsqSendCommand startXmit (versionCall cookie)
  return vars.storeAnswer result fwMajorVersion fwMinorVersion apiMajorVersion apiMinorVersion

/-- `e1000_aq_echo` of the driver, given what its stack holds. -/
def e1000AqEcho (cookie : UInt64) (stackbuf : Region) : DriverM Unit := do
  let adminqBuf := Region.store (fun _ => 0) (stackbuf.load 1024)
  let _ ← e1000AsqSendCommand startXmit (echoCall cookie adminqBuf 1024)

/-- `e1000_adminq_cmd`: its local variables after the command. -/
def e1000AdminqCmd (cookie : UInt64) (stackbuf : Region) (vars : Versions) (cmd : Int) :
    DriverM Versions := do
  match cmd with
  | 1 => e1000AqGetFirmwareVersion startXmit cookie .fwMin .fwMaj .apiMin .apiMaj vars
  | 3 =>
    e1000AqEcho startXmit cookie stackbuf
    return vars
  | _ => return vars

end Driver

section Result

variable (startXmit : Machine → Machine) (aq : AdminqInfo) (m : Machine)

/-- What `e1000_adminq_cmd` makes of the collected result. -/
def decoded (vars : Versions) (result : AsqResult) : Versions :=
  vars.storeAnswer result .fwMin .fwMaj .apiMin .apiMaj

/-- The first command of `e1000_adminq_cmd` posts the request and decodes what it collects. -/
theorem e1000AdminqCmd_eq (cookie : UInt64) (stackbuf : Region) (vars : Versions) :
    e1000AdminqCmd startXmit cookie stackbuf vars 1 aq m =
      e1000SetAtqTail pfAtqt aq.bumped.nextToUse.toUInt32 (posted aq (versionCall cookie) m) >>=
        fun written =>
        .pure ((decoded vars (collected (versionCall cookie) (versionCall cookie).marked aq.slot
          (aq.asqBi aq.nextToUse.toNat) written.2.ram), aq.bumped), written.2) := by
  have hfits : ¬ (versionCall cookie).buffSize > aq.asqBufSize :=
  Nat.not_lt_zero aq.asqBufSize.toNat
  have hdecode : e1000AdminqCmd startXmit cookie stackbuf vars 1 aq m =
      e1000AsqSendCommand startXmit (versionCall cookie) aq m >>= fun sent =>
        .pure ((decoded vars sent.1.1, sent.1.2), sent.2) := rfl
  rw [hdecode, e1000AsqSendCommand_eq startXmit aq m hfits, Interaction.bind_assoc]
  rfl

end Result

end VirtualFirmware.Driver
