import VirtualFirmware.Library.Bytes
import VirtualFirmware.Library.Completion
import VirtualFirmware.Library.Handles

/-!
# The system behind the discovery of a peer

`announce` and `locate` find each other over multicast and connect. They ask the system for
memory, interfaces and sockets; every result comes from outside. The sockets and panels that one
call creates are kept in tables of handles, with the calls made so far, which no code reads. Using
a panel through `NULL`, using one that was freed, and leaving an array stop the program.
-/

namespace VirtualFirmware.Discovery

open Library

/-- The address families the code tells apart. -/
inductive AddrFamily where
  | unspec
  | inet
  | inet6
  | other
deriving DecidableEq, Repr

/-- `struct sockaddr`, with the address and the port of a `struct sockaddr_in` in network byte
order. -/
structure SockAddr where
  saFamily : AddrFamily
  sinAddr : UInt32
  sinPort : UInt16
deriving DecidableEq, Repr

/-- What cleared memory reads as. -/
def SockAddr.zero : SockAddr := ⟨.unspec, 0, 0⟩

/-- The socket types, with the one that cleared memory reads as. -/
inductive SockType where
  | unset
  | stream
  | dgram
deriving DecidableEq, Repr

/-- The protocols, with the one that cleared memory reads as. -/
inductive Protocol where
  | unset
  | tcp
  | udp
deriving DecidableEq, Repr

/-- A descriptor; `none` is `INVALID_SOCKET`. -/
abbrev Socket := Option ℕ

/-- `SOCKET_ERROR`. -/
def socketError : Int := -1

/-- The interface of a multicast membership: one that is named, or the one the panel is bound to. -/
inductive Membership where
  | named (ifaddr : String)
  | bound (addr : UInt32)
deriving DecidableEq, Repr

/-- The socket options that are set. -/
inductive SockOpt where
  | reuseAddr (reuse : Int)
  | addMembership (group : SockAddr) (interface : Membership)
  | dropMembership (group : SockAddr) (interface : Membership)
  | multicastIf (addr : SockAddr)
  | multicastLoop (family : AddrFamily) (loopval : Int)
deriving DecidableEq, Repr

/-- An entry of the list `getifaddrs` returns. -/
structure IfAddr where
  ifaName : String
  ifaAddr : Option SockAddr
  isUp : Bool
  isMulticast : Bool
  isLoopback : Bool
deriving DecidableEq, Repr

/-- The calls. -/
inductive SysCall where
  | malloc
  | getifaddrs
  | getnameinfo (addr : SockAddr)
  | getaddrinfo (addr : Option String) (svc : String) (family : AddrFamily) (socktype : SockType)
      (protocol : Protocol)
  | socket (family : AddrFamily) (socktype : SockType) (protocol : Protocol)
  | setsockopt (socket : Socket) (option : SockOpt)
  | bind (socket : Socket) (addr : SockAddr)
  | listen (socket : Socket) (backlog : ℕ)
  | sendto (socket : Socket) (message : List UInt8) (dest : SockAddr)
  | select (sockets : List Socket)
  | accept (socket : Socket)
  | recvfrom (socket : Socket) (size : ℕ)
  | connect (socket : Socket) (dest : SockAddr)
deriving DecidableEq, Repr

/-- What `select` returns: an error, zero, or a positive number with the descriptors that are
set. -/
inductive Selected where
  | failed
  | timedOut
  | ready (sockets : List ℕ)
deriving DecidableEq, Repr

/-- What each call returns; calls that create a socket say whether they did. -/
abbrev SysReply : SysCall → Type
  | .malloc => Bool
  | .getifaddrs => Option (List IfAddr)
  | .getnameinfo _ => Option String
  | .getaddrinfo _ _ _ _ _ => Option SockAddr
  | .socket _ _ _ => Bool
  | .setsockopt _ _ => Int
  | .bind _ _ => Int
  | .listen _ _ => Int
  | .sendto _ _ _ => Int
  | .select _ => Selected
  | .accept _ => Option SockAddr
  | .recvfrom _ _ => Option (List UInt8 × SockAddr)
  | .connect _ _ => Int

/-- What a call returns when nothing is wrong, on a machine without interfaces. -/
def SysCall.success : (op : SysCall) → SysReply op
  | .malloc => true
  | .getifaddrs => some []
  | .getnameinfo _ => some "10.0.0.1"
  | .getaddrinfo _ _ _ _ _ => some ⟨.inet, 0, 0⟩
  | .socket _ _ _ => true
  | .setsockopt _ _ => 0
  | .bind _ _ => 0
  | .listen _ _ => 0
  | .sendto _ _ _ => 12
  | .select _ => .ready []
  | .accept _ => some ⟨.inet, 0, 0⟩
  | .recvfrom _ _ => some ([], ⟨.inet, 0, 0⟩)
  | .connect _ _ => 0

/-- `struct socket_panel`. -/
structure Panel where
  spSocket : Socket
  spBind : SockAddr
  spDest : SockAddr
  spFamily : AddrFamily
  spSocktype : SockType
  spProtocol : Protocol
  spFlags : UInt16
deriving DecidableEq, Repr

/-- A pointer to a panel; `none` is `NULL`. -/
abbrev PanelPtr := Option ℕ

/-- What must not happen. -/
inductive Fault where
  | nullPanel
  | freedPanel
  | outOfBounds
deriving DecidableEq, Repr

/-- Why a run has no result: a fault, or its loop has not ended within the rounds looked at. -/
inductive Halt where
  | fault (fault : Fault)
  | running
deriving DecidableEq, Repr

/-- The panels and sockets that the call created, and the system calls so far with their results. -/
structure World where
  panels : Handles Panel
  sockets : Handles Unit
  calls : List (Sigma SysReply)

/-- Nothing was created and called. -/
def World.initial : World := ⟨.empty, .empty, []⟩

/-- Code that asks the system. -/
abbrev DiscoveryM := ExceptT Halt (StateT World (Interaction SysCall SysReply))

/-- The world after a call. -/
def World.called (w : World) (op : SysCall) (reply : SysReply op) : World :=
  { w with calls := w.calls ++ [⟨op, reply⟩] }

/-- Make a system call. -/
def sys (op : SysCall) : DiscoveryM (SysReply op) := fun w =>
  .perform op fun reply => .pure (.ok reply, w.called op reply)

/-- A call goes on with its result, whatever it is. -/
theorem always_sys {A : Type} {condition : Except Halt A × World → Prop} {op : SysCall}
    {next : SysReply op → DiscoveryM A} {w : World} :
    Interaction.Always condition ((sys op >>= next) w) ↔
      ∀ reply, Interaction.Always condition (next reply (w.called op reply)) := Iff.rfl

/-- What follows a call has to complete whatever its result is. -/
theorem finishes_sys {A : Type} {post : A → World → Prop} {op : SysCall}
    {next : SysReply op → DiscoveryM A} {w : World} : Finishes post (sys op >>= next) w ↔
      ∀ reply, Finishes post (next reply) (w.called op reply) := Iff.rfl

/-- Stop with a fault. -/
def fail {A : Type} (fault : Fault) : DiscoveryM A := fun w => .pure (.error (.fault fault), w)

/-- Read the panel behind a pointer. -/
def deref (p : PanelPtr) : DiscoveryM Panel := fun w =>
  match p with
  | none => fail .nullPanel w
  | some id =>
    match w.panels.value id with
    | none => fail .freedPanel w
    | some panel => .pure (.ok panel, w)

/-- Store into the panel behind a pointer. -/
def assign (p : PanelPtr) (f : Panel → Panel) : DiscoveryM Unit := fun w =>
  match p with
  | none => fail .nullPanel w
  | some id =>
    match w.panels.value id with
    | none => fail .freedPanel w
    | some _ => .pure (.ok (), { w with panels := w.panels.modify id f })

/-- `free` of a panel. -/
def free (p : PanelPtr) : DiscoveryM Unit := fun w =>
  match p with
  | none => .pure (.ok (), w)
  | some id =>
    match w.panels.value id with
    | none => fail .freedPanel w
    | some _ => .pure (.ok (), { w with panels := w.panels.release id })

/-- The descriptor of a socket that was created. -/
def newSocket : DiscoveryM Socket := fun w =>
  .pure (.ok (some w.sockets.next), { w with sockets := w.sockets.acquire () })

/-- The world after a descriptor was closed; closing what is not open has no effect. -/
def World.closed (w : World) : Socket → World
  | none => w
  | some fd => { w with sockets := w.sockets.release fd }

/-- `close`. -/
def close (socket : Socket) : DiscoveryM Unit := fun w => .pure (.ok (), w.closed socket)

/-- An entry of an array. -/
def entry {A : Type} (array : List A) (i : ℕ) : DiscoveryM A := fun w =>
  match array[i]? with
  | some value => .pure (.ok value, w)
  | none => fail .outOfBounds w

/-- Store into an entry of an array. -/
def setEntry {A : Type} (array : List A) (i : ℕ) (value : A) : DiscoveryM (List A) := fun w =>
  if i < array.length then .pure (.ok (array.set i value), w) else fail .outOfBounds w

end VirtualFirmware.Discovery
