import VirtualFirmware.Discovery.Interfaces

/-!
# Locating the firmware

`locate` listens for announcements and connects to where the first one with the right magic number
points. It receives every datagram into the same variable, whatever the datagram's length is, and
converts the magic number in place.
-/

namespace VirtualFirmware.Discovery

open Library

/-- `struct options`, as far as it is used here. -/
structure Options where
  mcastip : String
  mcastport : String
  magicnum : UInt32
  tcpport : String
  timeout : Int
deriving DecidableEq, Repr

/-- The default option values. -/
def Options.default : Options := ⟨"234.1.1.10", "9751", 0xe1000, "9752", 0⟩

/-- `sizeof(struct announce_msg)`. -/
def announceMsgSize : ℕ := 12

/-- The variable `m`: the bytes of a `struct announce_msg`. -/
abbrev AnnounceMsg := Region

/-- `m.magic`, as the host reads it. -/
@[irreducible] def AnnounceMsg.magic (m : AnnounceMsg) : UInt32 := UInt32.ofNat (leNat (m.load 4))

/-- `m.addr`. -/
def AnnounceMsg.addr (m : AnnounceMsg) : UInt32 := UInt32.ofNat (leNat ((m.load 8).drop 4))

/-- `m.port`. -/
def AnnounceMsg.port (m : AnnounceMsg) : UInt16 := UInt16.ofNat (leNat ((m.load 10).drop 8))

/-- `m.magic = ntohl(m.magic)`. -/
def AnnounceMsg.ntohlMagic (m : AnnounceMsg) : AnnounceMsg := Region.store m (m.load 4).reverse

/-- The variable after a datagram was received into it and its magic number converted; what is
beyond the variable's size is dropped. -/
def AnnounceMsg.received (m : AnnounceMsg) (datagram : List UInt8) : AnnounceMsg :=
  AnnounceMsg.ntohlMagic (Region.store m (datagram.take announceMsgSize))

section Locate

variable (opt : Options)

/-- The label `err` of `locate`. -/
def locateErr (hs cs : PanelPtr) : DiscoveryM Socket := do
  if hs ≠ none then freePanel hs
  if cs ≠ none then freePanel cs
  return none

/-- What follows the loop of `locate`. -/
def locateDone (hs cs : PanelPtr) (socket : Socket) : DiscoveryM Socket := do
  freePanel hs
  dissociatePanel cs
  return socket

/-- Connect to where the announcement points. -/
def locateConnect (hs cs : PanelPtr) (m : AnnounceMsg) : DiscoveryM Socket := do
  assign cs fun panel => { panel with
    spDest := { panel.spDest with sinAddr := m.addr, sinPort := m.port } }
  let panel ← deref cs
  let rc ← sys (.connect panel.spSocket panel.spDest)
  if rc = socketError then locateErr hs cs
  -- the socket of a panel is valid, so the loop ends here
  else locateDone hs cs (← deref cs).spSocket

/-- Receive a datagram into `m`, and go on if it is not an announcement with the right magic
number. -/
def locateReceive (hs cs : PanelPtr) (m : AnnounceMsg) (again : AnnounceMsg → DiscoveryM Socket) :
    DiscoveryM Socket := do
  match ← sys (.recvfrom (← deref hs).spSocket announceMsgSize) with
  | none => locateErr hs cs
  | some (datagram, source) =>
    assign cs fun panel => { panel with spDest := source }
    if (m.received datagram).magic = opt.magicnum then locateConnect hs cs (m.received datagram)
    else again (m.received datagram)

/-- The loop of `locate`, at most `rounds` rounds of it. -/
def locateLoop (hs cs : PanelPtr) : (rounds : ℕ) → AnnounceMsg → DiscoveryM Socket
  | 0, _ => throw .running
  | rounds + 1, m => do
    match ← sys (.select [(← deref hs).spSocket]) with
    | .failed => locateErr hs cs
    | .timedOut => locateDone hs cs none
    | .ready _ => locateReceive opt hs cs m (locateLoop hs cs rounds)

/-- The loop of `locate` that joins the group on each interface, with `left` of them left. -/
def joinLoop (hs : PanelPtr) (ifd : List IfData) (ifdLength : ℕ) : (left : ℕ) → DiscoveryM Int
  | 0 => return 0
  | left + 1 => do
    let rc ← joinMulticastGroup hs (some (← entry ifd (ifdLength - (left + 1))).ifAddr)
    if rc = socketError then return socketError else joinLoop hs ifd ifdLength left

/-- The part of `locate` that makes the panel for the connection. -/
def locateConnection (hs : PanelPtr) (rounds : ℕ) (m : AnnounceMsg) : DiscoveryM Socket := do
  let cs ← createBoundPanel "0" .inet .stream .tcp
  if cs = none then locateErr hs none
  else locateLoop opt hs cs rounds m

/-- The part of `locate` that joins the group and makes the panel for the connection. -/
def locateJoin (hs : PanelPtr) (ifd : List IfData) (ifdLength rounds : ℕ) (m : AnnounceMsg) :
    DiscoveryM Socket := do
  let rc ← joinLoop hs ifd ifdLength ifdLength
  if rc = socketError then locateErr hs none
  else
    let rc ← setMulticastLoopback hs 1
    if rc = socketError then locateErr hs none
    else locateConnection opt hs rounds m

/-- The part of `locate` that sets up the panel for announcements. -/
def locateListen (hs : PanelPtr) (ifd : List IfData) (ifdLength rounds : ℕ) (m : AnnounceMsg) :
    DiscoveryM Socket := do
  let rc ← bindPanel hs none opt.mcastport 1
  if rc = socketError then locateErr hs none
  else
    let rc ← setDestination hs opt.mcastip opt.mcastport
    if rc = socketError then locateErr hs none
    else locateJoin opt hs ifd ifdLength rounds m

/-- `locate`, with the contents of the variable `m` when it starts. -/
def locate (rounds : ℕ) (m : AnnounceMsg) : DiscoveryM Socket := do
  let (rc, ifd, ifdLength) ← populateInterfaceData (List.replicate maxIfLength .unset) maxIfLength
  if rc = socketError then locateErr none none
  else
    let hs ← createPanel .inet .dgram .udp
    if hs = none then locateErr none none
    else locateListen opt hs ifd ifdLength rounds m

end Locate

end VirtualFirmware.Discovery
