import VirtualFirmware.Discovery.System

/-!
# Panels

A panel is a socket together with how it was made and the addresses it is used with. `CreatePanel`
stores the socket through the pointer it got from `CreateEmptyPanel` without a look at it, and
`CreateBoundPanel` goes on with whatever `CreatePanel` returned.
-/

namespace VirtualFirmware.Discovery

open Library

/-- `SP_F_VALID`. -/
def spFValid : UInt16 := 0x0001

/-- `SP_F_LISTENER`. -/
def spFListener : UInt16 := 0x0002

/-- `SP_F_SENDER`. -/
def spFSender : UInt16 := 0x0004

/-- `SP_F_MULTICAST`. -/
def spFMulticast : UInt16 := 0x0010

/-- A panel in cleared memory. -/
def Panel.zero : Panel := ⟨some 0, .zero, .zero, .unspec, .unset, .unset, 0⟩

/-- `CreateEmptyPanel`. -/
def createEmptyPanel : DiscoveryM PanelPtr := do
  if ← sys .malloc then
    fun w => .pure (.ok (some w.panels.next), { w with panels := w.panels.acquire .zero })
  else return none

/-- `FreePanel`. -/
def freePanel (p : PanelPtr) : DiscoveryM Unit := do
  if p ≠ none then
    close (← deref p).spSocket
    free p

/-- `DissociatePanel`. -/
def dissociatePanel (p : PanelPtr) : DiscoveryM Unit := do
  if p ≠ none then
    free p

/-- `socket`: a new descriptor, or `INVALID_SOCKET`. -/
def socket (af : AddrFamily) (type : SockType) (proto : Protocol) : DiscoveryM Socket := do
  if ← sys (.socket af type proto) then newSocket else return none

/-- A panel with another socket. -/
def Panel.withSocket (spSocket : Socket) (panel : Panel) : Panel := { panel with spSocket }

/-- A panel holds the socket that was stored in it. -/
@[simp] theorem Panel.withSocket_spSocket (spSocket : Socket) (panel : Panel) :
    (panel.withSocket spSocket).spSocket = spSocket := rfl

/-- A panel marked as valid, with how its socket was made. -/
def Panel.validated (af : AddrFamily) (type : SockType) (proto : Protocol) (panel : Panel) :
    Panel :=
  { panel with
    spFamily := af, spSocktype := type, spProtocol := proto
    spFlags := panel.spFlags ||| spFValid }

/-- What `CreatePanel` does with the new memory and socket. -/
def fillPanel (p : PanelPtr) (af : AddrFamily) (type : SockType) (proto : Protocol)
    (spSocket : Socket) :
    DiscoveryM PanelPtr := do
  assign p (Panel.withSocket spSocket)
  if (← deref p).spSocket = none then
    freePanel p
    return none
  else
    assign p (Panel.validated af type proto)
    return p

/-- `CreatePanel`. -/
def createPanel (af : AddrFamily) (type : SockType) (proto : Protocol) : DiscoveryM PanelPtr := do
  let p ← createEmptyPanel
  let spSocket ← socket af type proto
  fillPanel p af type proto spSocket

/-- `ResolveAddr`. -/
def resolveAddr (addr : Option String) (svc : String) (panel : Panel) :
    DiscoveryM (Option SockAddr) :=
  sys (.getaddrinfo addr svc panel.spFamily panel.spSocktype panel.spProtocol)

/-- `BindPanel`. -/
def bindPanel (p : PanelPtr) (addr : Option String) (svc : String) (reuse : Int) :
    DiscoveryM Int := do
  if (← deref p).spFlags &&& spFValid ≠ 0 then
    match ← resolveAddr addr svc (← deref p) with
    | none => return socketError
    | some ai =>
      assign p fun panel => { panel with spBind := ai }
      let rc ← sys (.setsockopt (← deref p).spSocket (.reuseAddr reuse))
      if rc = socketError then
        return rc
      else
        assign p fun panel => { panel with spFlags := panel.spFlags ||| spFListener }
        sys (.bind (← deref p).spSocket (← deref p).spBind)
  else return socketError

/-- `CreateBoundPanel`. -/
def createBoundPanel (svc : String) (af : AddrFamily) (type : SockType) (proto : Protocol) :
    DiscoveryM PanelPtr := do
  let p ← createPanel af type proto
  let rc ← bindPanel p none svc 1
  if rc = socketError then
    freePanel p
    return none
  else return p

/-- `SetDestination`. -/
def setDestination (p : PanelPtr) (addr : Option String) (svc : String) : DiscoveryM Int := do
  if (← deref p).spFlags &&& spFValid ≠ 0 then
    match ← resolveAddr addr svc (← deref p) with
    | none => return socketError
    | some ai =>
      assign p fun panel => { panel with spDest := ai, spFlags := panel.spFlags ||| spFSender }
      return 0
  else return socketError

/-- The families for which a membership can be formed. -/
def AddrFamily.Supported (family : AddrFamily) : Prop := family ≠ .other

instance (family : AddrFamily) : Decidable family.Supported := inferInstanceAs (Decidable (_ ≠ _))

/-- The interface that a membership is for. -/
def membership (panel : Panel) : Option String → Membership
  | some ifaddr => .named ifaddr
  | none => .bound panel.spBind.sinAddr

/-- `JoinMulticastGroup`. -/
def joinMulticastGroup (p : PanelPtr) (ifaddr : Option String) : DiscoveryM Int := do
  let panel ← deref p
  if panel.spDest.saFamily.Supported then
    let rc ← sys
      (.setsockopt panel.spSocket (.addMembership panel.spDest (membership panel ifaddr)))
    if rc = socketError then
      return socketError
    else
      assign p fun panel => { panel with spFlags := panel.spFlags ||| spFMulticast }
      return rc
  else return socketError

/-- `LeaveMulticastGroup`. -/
def leaveMulticastGroup (p : PanelPtr) (ifaddr : Option String) : DiscoveryM Int := do
  let panel ← deref p
  if panel.spDest.saFamily.Supported then
    let rc ← sys
      (.setsockopt panel.spSocket (.dropMembership panel.spDest (membership panel ifaddr)))
    if rc = socketError then
      return socketError
    else
      assign p fun panel => { panel with spFlags := panel.spFlags &&& ~~~ spFMulticast }
      return rc
  else return socketError

/-- `SetMulticastSendInterface`. -/
def setMulticastSendInterface (p : PanelPtr) (addr : SockAddr) : DiscoveryM Int := do
  if addr.saFamily = .inet ∨ addr.saFamily = .inet6 then
    let rc ← sys (.setsockopt (← deref p).spSocket (.multicastIf addr))
    if rc = socketError then return socketError else return rc
  else return socketError

/-- `SetMulticastLoopback`. -/
def setMulticastLoopback (p : PanelPtr) (loopval : Int) : DiscoveryM Int := do
  let panel ← deref p
  if panel.spDest.saFamily = .inet ∨ panel.spDest.saFamily = .inet6 then
    let rc ← sys (.setsockopt panel.spSocket (.multicastLoop panel.spDest.saFamily loopval))
    if rc = socketError then return socketError else return 0
  else return socketError

end VirtualFirmware.Discovery
