import VirtualFirmware.Discovery.Locate
import VirtualFirmware.Opt.ReadOptions

/-!
# Announcing the firmware

`announce` makes a pair of panels for each interface, sends announcements and accepts the first
connection. Its arrays have `MAX_IF_LENGTH` entries. The loop after a connection frees the panels
and leaves their pointers in the array, and the label `err` frees whatever pointers it finds there.
-/

namespace VirtualFirmware.Discovery

open Library

/-- `PACKETS_PER_SEC`. -/
def packetsPerSec : Int := 10

/-- `IF_PANEL`. -/
structure IfPanel where
  hs : PanelPtr
  cs : PanelPtr
deriving DecidableEq, Repr

section Announce

variable (opt : Options)

/-- The announcement: the magic number and the port in network byte order, the address as it is. -/
def announceMsg (addr : UInt32) : List UInt8 :=
  beBytes 4 opt.magicnum.toNat ++ leBytes 4 addr.toNat ++
    beBytes 2 (Opt.atoi (Opt.ascii opt.tcpport.toList)).toUInt16.toNat ++ leBytes 2 0

/-- The part of `buildIfPanel` that makes the panel for the connection. -/
def buildConnection (p : IfPanel) (i : IfData) : DiscoveryM (Int × IfPanel) := do
  let cs ← createPanel .inet .stream .tcp
  if cs = none then return (socketError, { p with cs })
  else
    let rc ← bindPanel cs (some i.ifAddr) opt.tcpport 1
    return (if rc = socketError then rc else 0, { p with cs })

/-- The part of `buildIfPanel` that joins the group. -/
def buildMulticast (p : IfPanel) (i : IfData) : DiscoveryM (Int × IfPanel) := do
  let rc ← joinMulticastGroup p.hs none
  if rc = socketError then return (rc, p)
  else
    let rc ← setMulticastSendInterface p.hs i.sa
    if rc = socketError then return (rc, p)
    else
      let rc ← setMulticastLoopback p.hs 1
      if rc = socketError then return (rc, p) else buildConnection opt p i

/-- `buildIfPanel`: the result and the entry after the call. -/
def buildIfPanel (p : IfPanel) (i : IfData) : DiscoveryM (Int × IfPanel) := do
  let hs ← createPanel .inet .dgram .udp
  if hs = none then return (socketError, { p with hs })
  else
    let rc ← bindPanel hs (some i.ifAddr) opt.mcastport 1
    if rc = socketError then return (rc, { p with hs })
    else
      let rc ← setDestination hs (some opt.mcastip) opt.mcastport
      if rc = socketError then return (rc, { p with hs }) else buildMulticast opt { p with hs } i

/-- The loop of `announce` that builds the panels, with `left` interfaces left. -/
def buildLoop (ifd : List IfData) (ifdLength : ℕ) :
    (left : ℕ) → List IfPanel → DiscoveryM (Int × List IfPanel)
  | 0, ifp => return (0, ifp)
  | left + 1, ifp => do
    let i := ifdLength - (left + 1)
    let (rc, p) ← buildIfPanel opt (← entry ifp i) (← entry ifd i)
    let ifp ← setEntry ifp i p
    if rc = socketError then return (socketError, ifp) else buildLoop ifd ifdLength left ifp

/-- The loop of `announce` that listens on each interface. -/
def listenLoop (ifp : List IfPanel) (ifdLength : ℕ) : (left : ℕ) → DiscoveryM Int
  | 0 => return 0
  | left + 1 => do
    let rc ← sys (.listen (← deref (← entry ifp (ifdLength - (left + 1))).cs).spSocket 1)
    if rc = socketError then return socketError else listenLoop ifp ifdLength left

/-- The loop of `announce` that sends an announcement on each interface. -/
def sendLoop (ifp : List IfPanel) (ifdLength : ℕ) : (left : ℕ) → DiscoveryM Int
  | 0 => return 0
  | left + 1 => do
    let p ← entry ifp (ifdLength - (left + 1))
    let addr := (← deref p.cs).spBind.sinAddr
    let hs ← deref p.hs
    let rc ← sys (.sendto hs.spSocket (announceMsg opt addr) hs.spDest)
    if rc = socketError then return socketError else sendLoop ifp ifdLength left

/-- The loop of `announce` that collects the sockets to wait for. -/
def fdSetLoop (ifp : List IfPanel) (ifdLength : ℕ) : (left : ℕ) → DiscoveryM (List Socket)
  | 0 => return []
  | left + 1 => do
    let socket := (← deref (← entry ifp (ifdLength - (left + 1))).cs).spSocket
    return socket :: (← fdSetLoop ifp ifdLength left)

/-- `accept`: the new descriptor or `INVALID_SOCKET`, with the peer's address stored in the
panel. -/
def acceptOn (cs : PanelPtr) : DiscoveryM Socket := do
  match ← sys (.accept (← deref cs).spSocket) with
  | none => return none
  | some addr =>
    assign cs fun panel => { panel with spDest := addr }
    newSocket

/-- The loop of `announce` that accepts on the first interface that is ready. -/
def acceptLoop (ifp : List IfPanel) (ifdLength : ℕ) (ready : List ℕ) :
    (left : ℕ) → DiscoveryM Socket
  | 0 => return none
  | left + 1 => do
    let p ← entry ifp (ifdLength - (left + 1))
    match (← deref p.cs).spSocket with
    | none => acceptLoop ifp ifdLength ready left
    | some fd => if fd ∈ ready then acceptOn p.cs else acceptLoop ifp ifdLength ready left

/-- The loop at the label `err` of `announce`, with `left` entries left of `total`. -/
def errLoop (ifp : List IfPanel) (total : ℕ) : (left : ℕ) → DiscoveryM Unit
  | 0 => return ()
  | left + 1 => do
    let p ← entry ifp (total - (left + 1))
    freePanel p.hs
    freePanel p.cs
    errLoop ifp total left

/-- The label `err` of `announce`. -/
def announceErr (ifp : List IfPanel) (ifdLength : ℕ) : DiscoveryM Socket := do
  errLoop ifp (max ifdLength maxIfLength) (max ifdLength maxIfLength)
  return none

/-- The loop of `announce` that frees the panels, and what follows it. -/
def cleanupLoop (ifp : List IfPanel) (ifdLength : ℕ) (socket : Socket) :
    (left : ℕ) → DiscoveryM Socket
  | 0 => return socket
  | left + 1 => do
    let p ← entry ifp (ifdLength - (left + 1))
    if socket = (← deref p.cs).spSocket then dissociatePanel p.cs else freePanel p.cs
    let rc ← leaveMulticastGroup p.hs none
    if rc = socketError then announceErr ifp ifdLength
    else
      freePanel p.hs
      cleanupLoop ifp ifdLength socket left

/-- The part of a round of `announce` that waits for a connection. -/
def announceWait (ifp : List IfPanel) (ifdLength : ℕ) (again : DiscoveryM Socket) :
    DiscoveryM Socket := do
  -- the argument of `dbg` is evaluated whatever the level is
  let _ ← deref (← entry ifp 0).hs
  let readfds ← fdSetLoop ifp ifdLength ifdLength
  match ← sys (.select readfds) with
  | .failed => announceErr ifp ifdLength
  | .timedOut => again
  | .ready sockets =>
    let socket ← acceptLoop ifp ifdLength sockets ifdLength
    if socket ≠ none then cleanupLoop ifp ifdLength socket ifdLength else again

/-- One round of `announce`. -/
def announceRound (ifp : List IfPanel) (ifdLength : ℕ) (again : DiscoveryM Socket) :
    DiscoveryM Socket := do
  let rc ← sendLoop opt ifp ifdLength ifdLength
  if rc = socketError then announceErr ifp ifdLength else announceWait ifp ifdLength again

/-- The loop of `announce`, from the `count`th round on and at most `rounds` rounds of it. -/
def announceLoop (ifp : List IfPanel) (ifdLength : ℕ) :
    (rounds : ℕ) → (count : Int) → DiscoveryM Socket
  | 0, count =>
    if opt.timeout * packetsPerSec = 0 ∨ count < opt.timeout * packetsPerSec then throw .running
    else cleanupLoop ifp ifdLength none ifdLength
  | rounds + 1, count =>
    if opt.timeout * packetsPerSec = 0 ∨ count < opt.timeout * packetsPerSec then
      announceRound opt ifp ifdLength (announceLoop ifp ifdLength rounds (count + 1))
    else cleanupLoop ifp ifdLength none ifdLength

/-- The part of `announce` that uses the panels. -/
def announcePanels (ifp : List IfPanel) (ifdLength rounds : ℕ) : DiscoveryM Socket := do
  let rc ← listenLoop ifp ifdLength ifdLength
  if rc = socketError then announceErr ifp ifdLength else announceLoop opt ifp ifdLength rounds 0

/-- `announce`. -/
def announce (rounds : ℕ) : DiscoveryM Socket := do
  let ifp := List.replicate maxIfLength ⟨none, none⟩
  let (rc, ifd, ifdLength) ← populateInterfaceData (List.replicate maxIfLength .unset) maxIfLength
  if rc = socketError then announceErr ifp ifdLength
  else
    let (rc, ifp) ← buildLoop opt ifd ifdLength ifdLength ifp
    if rc = socketError then announceErr ifp ifdLength else announcePanels opt ifp ifdLength rounds

end Announce

end VirtualFirmware.Discovery
