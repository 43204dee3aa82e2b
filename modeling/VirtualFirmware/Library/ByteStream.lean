import Mathlib.Data.List.Basic
import Mathlib.Tactic.Common

/-!
# The two ends of a byte-stream connection

The receiving end holds the bytes the peer wrote and did not yet hand over, how many of
them have arrived, and what the network will do before each coming receive call. A receive
call returns what has arrived, at least one byte, up to the number asked for. It waits
when nothing is left to arrive on an open connection, and returns nothing once the peer
has closed. An exhausted schedule means that everything written has arrived.

The sending end records the bytes the connection accepted; each send call may accept only
a prefix of what it is given, or fail.
-/

namespace VirtualFirmware.Library

/-- What the network does before one receive call returns. -/
inductive Arrival where
  | bytes (count : ℕ)
  | failure
deriving DecidableEq, Repr

/-- The receiving end of a connection. -/
structure Incoming where
  unread : List UInt8
  arrived : ℕ
  schedule : List Arrival
  closed : Bool
deriving DecidableEq, Repr

/-- Whether a receive call leaves the returned bytes in the stream. -/
inductive RecvMode where
  | peek
  | take
deriving DecidableEq, Repr

namespace Incoming

/-- A connection on which everything written so far has arrived and more may follow. -/
def whole (bytes : List UInt8) : Incoming := ⟨bytes, bytes.length, [], false⟩

/-- Return up to `count` of the first `arrived` bytes. -/
def recvArrived (mode : RecvMode) (count arrived : ℕ) (s : Incoming) :
    Option ((Int × List UInt8) × Incoming) :=
  if s.unread = [] then
    if s.closed then some ((0, []), { s with arrived := 0 }) else none
  else
    let available := min s.unread.length (max 1 arrived)
    let bytes := s.unread.take (min count available)
    some ((bytes.length, bytes), match mode with
      | .peek => { s with arrived := available }
      | .take =>
        { s with unread := s.unread.drop bytes.length, arrived := available - bytes.length })

/-- One receive call; `none` while it would wait. -/
def recv (mode : RecvMode) (count : ℕ) : StateT Incoming Option (Int × List UInt8) := fun s =>
  if count = 0 then some ((0, []), s)
  else match s.schedule with
    | [] => recvArrived mode count s.unread.length s
    | .bytes more :: rest => recvArrived mode count (s.arrived + more) { s with schedule := rest }
    | .failure :: rest => some ((-1, []), { s with schedule := rest })

/-- The peer writes more bytes. -/
def append (s : Incoming) (bytes : List UInt8) : Incoming := { s with unread := s.unread ++ bytes }

/-- Everything written has arrived by the time it is asked for. -/
def Prompt (s : Incoming) : Prop := s.schedule = []

/-- The stream after a receive call that returned `count` bytes. -/
def afterRecv (mode : RecvMode) (count : ℕ) (s : Incoming) : Incoming :=
  match mode with
  | .peek => { s with arrived := s.unread.length }
  | .take => { s with unread := s.unread.drop count, arrived := s.unread.length - count }

/-- On a prompt connection a receive call returns all the bytes it asks for. -/
theorem recv_prompt {s : Incoming} (hprompt : s.Prompt) (mode : RecvMode) {count : ℕ}
    (hpos : 0 < count) (hcount : count ≤ s.unread.length) :
    recv mode count s = some (((count : Int), s.unread.take count), s.afterRecv mode count) := by
  have hne : s.unread ≠ [] := by
    intro h
    rw [h, List.length_nil] at hcount
    omega
  have havail : min s.unread.length (max 1 s.unread.length) = s.unread.length := by omega
  have hlen : (s.unread.take count).length = count := by
    rw [List.length_take]
    omega
  simp only [recv, if_neg (Nat.ne_of_gt hpos), show s.schedule = [] from hprompt, recvArrived,
    if_neg hne, havail, Nat.min_eq_left hcount, hlen, afterRecv]

/-- Peeking at the front of a prompt stream returns it and leaves the stream. -/
theorem recv_peek_front {s : Incoming} (hprompt : s.Prompt) (front rest : List UInt8)
    (hpos : 0 < front.length) (hunread : s.unread = front ++ rest) :
    recv .peek front.length s =
      some (((front.length : Int), front), { s with arrived := s.unread.length }) := by
  rw [recv_prompt hprompt .peek hpos (by simp [hunread]), hunread, List.take_left]
  simp [afterRecv, hunread]

/-- Taking the front of a prompt stream returns it and leaves the rest. -/
theorem recv_take_front {s : Incoming} (hprompt : s.Prompt) (front rest : List UInt8)
    (hpos : 0 < front.length) (hunread : s.unread = front ++ rest) :
    recv .take front.length s =
      some (((front.length : Int), front), { s with unread := rest, arrived := rest.length }) := by
  rw [recv_prompt hprompt .take hpos (by simp [hunread]), hunread, List.take_left]
  simp [afterRecv, hunread]

/-- With nothing left to read on an open connection, a receive call waits. -/
theorem recv_waits {s : Incoming} (hprompt : s.Prompt) (hopen : s.closed = false)
    (hnil : s.unread = []) (mode : RecvMode) {count : ℕ} (hpos : 0 < count) :
    recv mode count s = none := by
  simp [recv, Nat.ne_of_gt hpos, show s.schedule = [] from hprompt, recvArrived, hnil, hopen]

/-- A receive call that returns either failed, or saw at least the bytes that had arrived. -/
theorem recv_eq_some {mode : RecvMode} {count : ℕ} {s final : Incoming} {rc : Int}
    {bytes : List UInt8} (hpos : 0 < count)
    (h : recv mode count s = some ((rc, bytes), final)) :
    (rc = -1 ∧ bytes = [] ∧ final.unread = s.unread) ∨
      ∃ arrived rest, (arrived = s.unread.length ∨ s.arrived ≤ arrived) ∧
        recvArrived mode count arrived { s with schedule := rest } = some ((rc, bytes), final) := by
  unfold recv at h
  rw [if_neg (Nat.ne_of_gt hpos)] at h
  split at h
  · rename_i hschedule
    refine Or.inr ⟨s.unread.length, [], Or.inl rfl, ?_⟩
    rw [← h, ← hschedule]
  · exact Or.inr ⟨_, _, Or.inr (Nat.le_add_right _ _), h⟩
  · simp only [Option.some.injEq, Prod.mk.injEq] at h
    obtain ⟨⟨rfl, rfl⟩, rfl⟩ := h
    exact Or.inl ⟨rfl, rfl, rfl⟩

/-- A nonempty stream yields its arrived front; an empty one yields nothing once closed. -/
theorem recvArrived_eq_some {mode : RecvMode} {count arrived : ℕ} {s final : Incoming} {rc : Int}
    {bytes : List UInt8} (h : recvArrived mode count arrived s = some ((rc, bytes), final)) :
    rc = bytes.length ∧
      (s.unread = [] ∧ bytes = [] ∧ final.unread = [] ∨
        s.unread ≠ [] ∧ bytes = s.unread.take (min count (min s.unread.length (max 1 arrived))) ∧
          final.arrived + (if mode = .take then bytes.length else 0) =
            min s.unread.length (max 1 arrived) ∧
          final.unread = if mode = .take then s.unread.drop bytes.length else s.unread) := by
  unfold recvArrived at h
  split at h
  · rename_i hnil
    split at h
    · simp only [Option.some.injEq, Prod.mk.injEq] at h
      obtain ⟨⟨rfl, rfl⟩, rfl⟩ := h
      exact ⟨rfl, Or.inl ⟨hnil, rfl, hnil⟩⟩
    · contradiction
  · rename_i hne
    simp only [Option.some.injEq, Prod.mk.injEq] at h
    obtain ⟨⟨rfl, rfl⟩, rfl⟩ := h
    refine ⟨rfl, Or.inr ⟨hne, rfl, ?_, ?_⟩⟩
    · cases mode with
      | peek => simp
      | take =>
        simp only [List.length_take, if_true]
        omega
    · cases mode <;> simp

/-- What one receive call can do: return a prefix of the stream, or fail and leave it. -/
theorem recv_cases {mode : RecvMode} {count : ℕ} {s final : Incoming} {rc : Int}
    {bytes : List UInt8} (hpos : 0 < count) (h : recv mode count s = some ((rc, bytes), final)) :
    (rc = -1 ∧ bytes = [] ∧ final.unread = s.unread) ∨
      (rc = bytes.length ∧ bytes.length ≤ count ∧ bytes <+: s.unread ∧
        final.unread = if mode = .take then s.unread.drop bytes.length else s.unread) := by
  rcases recv_eq_some hpos h with hfail | ⟨arrived, rest, -, hready⟩
  · exact Or.inl hfail
  · obtain ⟨hrc, ⟨hnil, rfl, hfinal⟩ | ⟨-, hbytes, -, hfinal⟩⟩ := recvArrived_eq_some hready
    · refine Or.inr ⟨hrc, Nat.zero_le _, List.nil_prefix, ?_⟩
      simp only at hnil
      simp [hfinal, hnil]
    · refine Or.inr ⟨hrc, ?_, ?_, hfinal⟩
      · rw [hbytes, List.length_take]
        omega
      · rw [hbytes]
        exact List.take_prefix _ _

/-- A receive call returns no more bytes than it asked for. -/
theorem recv_length_le {mode : RecvMode} {count : ℕ} {s final : Incoming} {rc : Int}
    {bytes : List UInt8} (h : recv mode count s = some ((rc, bytes), final)) :
    bytes.length ≤ count := by
  by_cases hzero : count = 0
  · rw [recv, if_pos hzero] at h
    cases h
    exact Nat.zero_le _
  · obtain ⟨-, rfl, -⟩ | ⟨-, hle, -⟩ := recv_cases (Nat.pos_of_ne_zero hzero) h
    · exact Nat.zero_le _
    · exact hle

/-- Bytes seen by a peek have arrived: taking as many afterwards returns exactly these. -/
theorem recv_take_of_peek {count : ℕ} {s seen final : Incoming} {rc : Int}
    {first second : List UInt8} (hpos : 0 < count)
    (hpeek : recv .peek count s = some (((count : Int), first), seen))
    (htake : recv .take count seen = some ((rc, second), final)) (hrc : 0 ≤ rc) :
    rc = count ∧ second = first := by
  rcases recv_eq_some hpos hpeek with hfail | ⟨arrived, rest, -, hready⟩
  · omega
  obtain ⟨hlen, ⟨-, rfl, -⟩ | ⟨-, hfirst, harrived, hunread⟩⟩ := recvArrived_eq_some hready
  · simp only [List.length_nil] at hlen
    omega
  simp only [reduceCtorEq, if_false, Nat.add_zero] at harrived hunread hfirst
  -- the peek returned all it asked for, so that many bytes are in the socket
  have hcount : count ≤ seen.arrived ∧ count ≤ seen.unread.length := by
    rw [hfirst, List.length_take, Int.natCast_inj] at hlen
    rw [harrived, hunread]
    omega
  rcases recv_eq_some hpos htake with hfail | ⟨later, rest', hlater, hready'⟩
  · omega
  obtain ⟨hlen', ⟨hnil, -, -⟩ | ⟨-, hsecond, -, -⟩⟩ := recvArrived_eq_some hready'
  · simp only at hnil
    rw [hnil, List.length_nil] at hcount
    omega
  have hmin : min count (min seen.unread.length (max 1 later)) = count := by omega
  simp only [hmin] at hsecond
  have hfront : first = seen.unread.take count := by
    rw [hfirst, hunread]
    congr 1
    rw [hfirst, List.length_take, Int.natCast_inj] at hlen
    omega
  refine ⟨?_, hsecond.trans hfront.symm⟩
  rw [hlen', hsecond, List.length_take]
  omega

end Incoming

/-- What the connection does with one send call. -/
inductive Acceptance where
  | bytes (count : ℕ)
  | failure
deriving DecidableEq, Repr

/-- The sending end of a connection. -/
structure Outgoing where
  accepted : List UInt8
  schedule : List Acceptance
deriving DecidableEq, Repr

namespace Outgoing

/-- A fresh sending end that accepts every send call whole. -/
def fresh : Outgoing := ⟨[], []⟩

/-- One send call; the result is the number of bytes accepted, or `-1`. -/
def send (bytes : List UInt8) : StateM Outgoing Int := fun s =>
  match s.schedule with
  | [] => ((bytes.length : Int), { s with accepted := s.accepted ++ bytes })
  | .bytes count :: rest =>
    (((bytes.take count).length : Int), ⟨s.accepted ++ bytes.take count, rest⟩)
  | .failure :: rest => (-1, { s with schedule := rest })

/-- Every send call is accepted whole. -/
def Prompt (s : Outgoing) : Prop := s.schedule = []

/-- On a prompt connection a send call accepts everything. -/
theorem send_prompt {s : Outgoing} (hprompt : s.Prompt) (bytes : List UInt8) :
    send bytes s = ((bytes.length : Int), { s with accepted := s.accepted ++ bytes }) := by
  simp only [send, show s.schedule = [] from hprompt]

/-- How many of `count` bytes the next send call accepts. -/
def accepts (s : Outgoing) (count : ℕ) : ℕ :=
  match s.schedule with
  | [] => count
  | .bytes more :: _ => min more count
  | .failure :: _ => 0

/-- The connection for the send call after the next. -/
def next (s : Outgoing) : Outgoing := { s with schedule := s.schedule.tail }

/-- A send call accepts no more than it is given. -/
theorem accepts_le (s : Outgoing) (count : ℕ) : s.accepts count ≤ count := by
  unfold accepts
  split
  · exact Nat.le_refl _
  · exact Nat.min_le_right _ _
  · exact Nat.zero_le _

/-- A send call accepts a front part of what it is given, or fails. -/
theorem send_eq (bytes : List UInt8) (s : Outgoing) :
    ∃ rc, send bytes s =
      (rc, ⟨s.accepted ++ bytes.take (s.accepts bytes.length), s.schedule.tail⟩) ∧
      (rc = s.accepts bytes.length ∨ rc = -1 ∧ s.accepts bytes.length = 0) := by
  obtain ⟨accepted, schedule⟩ := s
  cases schedule with
  | nil => exact ⟨bytes.length, by simp [send, accepts], .inl rfl⟩
  | cons first rest =>
    cases first with
    | bytes more =>
      have hfront : bytes.take (min more bytes.length) = bytes.take more := by
        rw [← List.take_take, List.take_length]
      refine ⟨((min more bytes.length : ℕ) : Int), ?_, .inl rfl⟩
      simp only [send, accepts, hfront, List.length_take, List.tail_cons]
    | failure => exact ⟨-1, by simp [send, accepts], .inr ⟨rfl, rfl⟩⟩

end Outgoing

end VirtualFirmware.Library
