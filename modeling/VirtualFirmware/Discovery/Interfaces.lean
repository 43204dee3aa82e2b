import VirtualFirmware.Discovery.Panel

/-!
# The interfaces that are used

`populateInterfaceData` fills an array with the interfaces that are up, can multicast and are not
loopback. When there are more than the array has room for it counts them all the same, fails, and
leaves their number in `*numIfs`.
-/

namespace VirtualFirmware.Discovery

open Library

/-- `IF_DATA`. -/
structure IfData where
  ifAddr : String
  ifName : String
  sa : SockAddr
deriving DecidableEq, Repr

/-- An entry that was not filled; nothing reads one. -/
def IfData.unset : IfData := ⟨"", "", .zero⟩

/-- `MAX_IF_LENGTH`. -/
def maxIfLength : ℕ := 32

/-- The address of an interface that is to be used. -/
def IfAddr.usable (ifa : IfAddr) : Option SockAddr :=
  match ifa.ifaAddr with
  | none => none
  | some addr =>
    if addr.saFamily = .inet ∧ ifa.isUp ∧ ifa.isMulticast ∧ ¬ ifa.isLoopback then some addr
    else none

/-- The loop of `populateInterfaceData` and what follows it. A name that cannot be had ends the
function at once. -/
def populateLoop (numIfs : ℕ) : List IfAddr → ℕ → List IfData → DiscoveryM (Int × List IfData × ℕ)
  | [], numFoundIfs, ifD =>
    return (if numFoundIfs > numIfs then socketError else 0, ifD, numFoundIfs)
  | ifa :: rest, numFoundIfs, ifD =>
    match ifa.usable with
    | none => populateLoop numIfs rest numFoundIfs ifD
    | some addr =>
      if numFoundIfs + 1 > numIfs then populateLoop numIfs rest (numFoundIfs + 1) ifD
      else do
        match ← sys (.getnameinfo addr) with
        | none => return (socketError, ifD, numIfs)
        | some ifAddr =>
          let ifD ← setEntry ifD numFoundIfs ⟨ifAddr, ifa.ifaName, addr⟩
          populateLoop numIfs rest (numFoundIfs + 1) ifD

/-- `populateInterfaceData`: the result, the array and `*numIfs` after the call. -/
def populateInterfaceData (ifD : List IfData) (numIfs : ℕ) :
    DiscoveryM (Int × List IfData × ℕ) := do
  match ← sys .getifaddrs with
  | none => return (socketError, ifD, numIfs)
  | some ifaddrs => populateLoop numIfs ifaddrs 0 ifD

end VirtualFirmware.Discovery
