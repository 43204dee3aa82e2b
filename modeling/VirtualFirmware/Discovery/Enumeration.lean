import VirtualFirmware.Discovery.Interfaces
import VirtualFirmware.Discovery.PanelUse

/-!
# What the enumeration of interfaces returns

`populateInterfaceData` touches no panel and no socket, stays inside its array, and either fails
with `*numIfs` as it was, or leaves the number of usable interfaces there and fails exactly if they
are too many.
-/

namespace VirtualFirmware.Discovery

open Library

/-- The call asks for a name. -/
def SysCall.AsksName : SysCall → Prop
  | .getnameinfo _ => True
  | _ => False

/-- The calls of the enumeration. -/
def SysCall.Enumerates (op : SysCall) : Prop := op = .getifaddrs ∨ op.AsksName

/-- The names of the interfaces could be had. -/
def Named (calls : List (Sigma SysReply)) : Prop := ∀ addr, ⟨.getnameinfo addr, none⟩ ∉ calls

/-- How many interfaces are usable. -/
def usableCount (ifaddrs : List IfAddr) : ℕ := (ifaddrs.filterMap IfAddr.usable).length

/-- The panels and sockets are the same, and only such calls were made. -/
structure Untouched (allowed : SysCall → Prop) (w w' : World) : Prop where
  panels : w'.panels = w.panels
  sockets : w'.sockets = w.sockets
  calls : Makes allowed w w'

/-- A step that touches no panel keeps what is owned. -/
theorem Untouched.owns {allowed : SysCall → Prop} {w w' : World} (h : Untouched allowed w w')
    {owned : List Owned} {loose : List ℕ} (howns : Owns w owned loose) : Owns w' owned loose :=
  ⟨h.panels ▸ howns.panels, h.sockets ▸ howns.sockets, h.panels ▸ howns.spSocket⟩

/-- A step that makes calls of some kinds makes calls of more kinds as well. -/
theorem Untouched.mono {strong weak : SysCall → Prop} {w w' : World} (h : Untouched strong w w')
    (himp : ∀ op, strong op → weak op) : Untouched weak w w' :=
  ⟨h.panels, h.sockets, h.calls.mono himp⟩

/-- Two steps that touch no panel are one such step. -/
theorem Untouched.trans {allowed : SysCall → Prop} {w w' w'' : World} (h : Untouched allowed w w')
    (h' : Untouched allowed w' w'') : Untouched allowed w w'' :=
  ⟨h'.panels.trans h.panels, h'.sockets.trans h.sockets, h.calls.trans h'.calls⟩

/-- What the loop returns: it found no name for one of them, with `*numIfs` as it was, or it counted
the interfaces. -/
def Counted (numIfs count : ℕ) (w w' : World) (result : Int × List IfData × ℕ) : Prop :=
  (¬ Named w'.calls ∧ 0 < count ∧ result.1 = socketError ∧ result.2.2 = numIfs) ∨
    ((Named w.calls → Named w'.calls) ∧ result.1 = (if count > numIfs then socketError else 0) ∧
      result.2.2 = count)

/-- The loop of `populateInterfaceData` counts. -/
theorem populateLoop_counts {numIfs : ℕ} (ifaddrs : List IfAddr) {found : ℕ} {ifD : List IfData}
    (hlength : ifD.length = numIfs) (w : World) :
    Finishes (fun result w' => Untouched SysCall.AsksName w w' ∧ result.2.1.length = numIfs ∧
        Counted numIfs (found + usableCount ifaddrs) w w' result)
      (populateLoop numIfs ifaddrs found ifD) w := by
  have hrefl : Untouched SysCall.AsksName w w := ⟨rfl, rfl, .refl rfl⟩
  induction ifaddrs generalizing found ifD w with
  | nil => exact ⟨_, rfl, hrefl, hlength, .inr ⟨id, rfl, rfl⟩⟩
  | cons ifa rest ih =>
    unfold populateLoop
    cases husable : ifa.usable with
    | none =>
      have hcount : usableCount (ifa :: rest) = usableCount rest := by simp [usableCount, husable]
      rw [hcount]
      exact ih hlength w hrefl
    | some addr =>
      have hcount : found + usableCount (ifa :: rest) = found + 1 + usableCount rest := by
        simp only [usableCount, List.filterMap_cons, husable, List.length_cons]
        omega
      rw [hcount]
      refine .ite (fun _ => ih hlength w hrefl) fun hroom => ?_
      -- a call for a name, with or without success
      have hcalled (reply : Option String) :
          Untouched SysCall.AsksName w (w.called (.getnameinfo addr) reply) :=
        ⟨rfl, rfl, Makes.called w (by trivial) _⟩
      rw [finishes_sys]
      rintro (_ | name)
      · refine ⟨_, rfl, hcalled none, hlength, .inl ⟨fun h => h addr ?_, by omega, rfl, rfl⟩⟩
        exact List.mem_append_right _ (List.mem_singleton_self _)
      · have hset :
            setEntry ifD found ⟨name, ifa.ifaName, addr⟩
              (w.called (.getnameinfo addr) (some name)) =
            .pure (.ok (ifD.set found ⟨name, ifa.ifaName, addr⟩),
              w.called (.getnameinfo addr) (some name)) := by
          rw [setEntry, if_pos (by omega)]
        have hnamed (h : Named w.calls) :
            Named (w.called (.getnameinfo addr) (some name)).calls := by
          intro other hmem
          obtain hmem | hmem := List.mem_append.mp hmem
          · exact h other hmem
          · cases List.mem_singleton.mp hmem
        refine .of_eq hset
          (Finishes.mono (ih (List.length_set.trans hlength) _ ⟨rfl, rfl, .refl rfl⟩) ?_)
        rintro result w' ⟨huntouched, hresult, hcounted⟩
        refine ⟨(hcalled _).trans huntouched, hresult, hcounted.imp id ?_⟩
        exact fun h => ⟨fun hw => h.1 (hnamed hw), h.2⟩

/-- More interfaces are usable than there is room for, and their names could be had. -/
def Overfull (calls : List (Sigma SysReply)) : Prop :=
  (∃ ifaddrs, ⟨.getifaddrs, some ifaddrs⟩ ∈ calls ∧ maxIfLength < usableCount ifaddrs) ∧ Named calls

/-- No interface is usable. -/
def Deserted (calls : List (Sigma SysReply)) : Prop :=
  ∃ ifaddrs, ⟨.getifaddrs, some ifaddrs⟩ ∈ calls ∧ usableCount ifaddrs = 0

/-- What `populateInterfaceData` returns on arrays of `MAX_IF_LENGTH` entries. -/
structure Populated (w w' : World) (result : Int × List IfData × ℕ) : Prop where
  untouched : Untouched SysCall.Enumerates w w'
  length : result.2.1.length = maxIfLength
  count : (¬ Overfull w'.calls ∧ result.2.2 ≤ maxIfLength) ∨
    (Overfull w'.calls ∧ result.1 = socketError ∧ maxIfLength < result.2.2)
  deserted : Deserted w'.calls ↔ result.1 ≠ socketError ∧ result.2.2 = 0

/-- `populateInterfaceData` at the start of a function. -/
theorem populateInterfaceData_populates {ifD : List IfData} (hlength : ifD.length = maxIfLength) :
    Finishes (fun result w' => Populated .initial w' result) (populateInterfaceData ifD maxIfLength)
      .initial := by
  have hcalled (reply : Option (List IfAddr)) :
      Untouched SysCall.Enumerates .initial (World.initial.called .getifaddrs reply) :=
    ⟨rfl, rfl, Makes.called _ (.inl rfl) _⟩
  rw [populateInterfaceData, finishes_sys]
  rintro (_ | ifaddrs)
  · refine ⟨_, rfl, hcalled none, hlength, .inl ⟨?_, le_rfl⟩, iff_of_false ?_ fun h => h.1 rfl⟩
    · rintro ⟨⟨ifaddrs, hmem, -⟩, -⟩
      cases List.mem_singleton.mp hmem
    · rintro ⟨ifaddrs, hmem, -⟩
      cases List.mem_singleton.mp hmem
  · refine Finishes.mono (populateLoop_counts ifaddrs hlength _) ?_
    rintro result w' ⟨huntouched, hresult, hcounted⟩
    obtain ⟨calls, hcalls, hasks⟩ := huntouched.calls
    have honly (others : List IfAddr) : ⟨.getifaddrs, some others⟩ ∈ w'.calls ↔
        others = ifaddrs := by
      rw [hcalls]
      refine ⟨fun hmem => ?_, fun heq => heq ▸ List.mem_append_left _ (List.mem_singleton_self _)⟩
      obtain hmem | hmem := List.mem_append.mp hmem
      · cases List.mem_singleton.mp hmem
        rfl
      · exact (hasks _ hmem).elim
    have hoverfull : Overfull w'.calls ↔ maxIfLength < usableCount ifaddrs ∧ Named w'.calls := by
      simp only [Overfull, honly, exists_eq_left]
    have hdeserted : Deserted w'.calls ↔ usableCount ifaddrs = 0 := by
      simp only [Deserted, honly, exists_eq_left]
    have hstart : Named (World.initial.called .getifaddrs (some ifaddrs)).calls := by
      intro addr hmem
      cases List.mem_singleton.mp hmem
    refine ⟨(hcalled _).trans (huntouched.mono fun _ => .inr), hresult, ?_, ?_⟩ <;>
      rw [Nat.zero_add] at hcounted
    · rw [hoverfull]
      obtain ⟨hnot, -, -, hcount⟩ | ⟨hnamed, hrc, hcount⟩ := hcounted
      · exact .inl ⟨fun h => hnot h.2, hcount.le⟩
      · by_cases hmany : usableCount ifaddrs > maxIfLength
        · rw [if_pos hmany] at hrc
          exact .inr ⟨⟨hmany, hnamed hstart⟩, hrc, hcount ▸ hmany⟩
        · exact .inl ⟨fun h => hmany h.1, hcount ▸ Nat.le_of_not_lt hmany⟩
    · rw [hdeserted]
      obtain ⟨-, hpos, hrc, -⟩ | ⟨-, hrc, hcount⟩ := hcounted
      · exact iff_of_false hpos.ne' fun h => h.1 hrc
      · rw [hcount]
        refine ⟨fun hzero => ⟨?_, hzero⟩, fun h => h.2⟩
        rw [hrc, hzero]
        decide

end VirtualFirmware.Discovery
