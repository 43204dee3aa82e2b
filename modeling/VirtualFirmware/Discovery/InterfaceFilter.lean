import Mathlib.Data.List.Forall2
import VirtualFirmware.Discovery.Enumeration

/-!
# The interfaces that are found

With names for all addresses `populateInterfaceData` fills its array with the eligible interfaces in
their order, as far as there is room, and leaves the rest of the array alone. One counter is the
index and the number of interfaces, also of those that found no room.
-/

namespace VirtualFirmware.Discovery

open Library

/-- The interface has an IPv4 address, is up, can multicast and is not loopback. -/
def IfAddr.eligible (ifa : IfAddr) : Bool :=
  ifa.ifaAddr.any (fun addr => addr.saFamily = .inet) && ifa.isUp && ifa.isMulticast &&
    !ifa.isLoopback

/-- The entry is that of the interface. -/
def IfAddr.Describes (ifa : IfAddr) (entry : IfData) : Prop :=
  entry.ifName = ifa.ifaName ∧ ifa.ifaAddr = some entry.sa

/-- The call in which the entry's address got its name. -/
def IfData.nameCall (entry : IfData) : Sigma SysReply := ⟨.getnameinfo entry.sa, some entry.ifAddr⟩

/-- What the function returns for the eligible interfaces, given how many were found before and the
calls for names. -/
structure Filtered (ifD : List IfData) (numIfs found : ℕ) (eligible : List IfAddr)
    (calls : List (Sigma SysReply)) (result : Int × List IfData × ℕ) : Prop where
  rc : result.1 = if found + eligible.length ≤ numIfs then 0 else socketError
  count : result.2.2 = found + eligible.length
  entries : ∃ entries, result.2.1 = ifD.take found ++ entries ++ ifD.drop (found + entries.length) ∧
    List.Forall₂ IfAddr.Describes (eligible.take (numIfs - found)) entries ∧
    calls = entries.map IfData.nameCall

/-- Only eligible interfaces are usable, with their address. -/
theorem IfAddr.usable_eq (ifa : IfAddr) :
    ifa.usable = if ifa.eligible then ifa.ifaAddr else none := by
  unfold usable eligible
  cases ifa.ifaAddr with
  | none => simp
  | some addr => simp [and_assoc]

/-- An eligible interface has an address. -/
theorem IfAddr.exists_addr {ifa : IfAddr} (h : ifa.eligible = true) :
    ∃ addr, ifa.ifaAddr = some addr := by
  cases haddr : ifa.ifaAddr with
  | none => simp [eligible, haddr] at h
  | some addr => exact ⟨addr, rfl⟩

namespace Filtered

variable {ifD : List IfData} {numIfs found : ℕ} {eligible : List IfAddr}
  {calls : List (Sigma SysReply)}
  {result : Int × List IfData × ℕ}

/-- Without interfaces the array and the count stay, and the result tells whether there were too
many. -/
theorem nil :
    Filtered ifD numIfs found [] [] (if found > numIfs then socketError else 0, ifD, found) where
  rc := by
    simp only [List.length_nil, Nat.add_zero]
    split
    · rw [if_neg (by omega)]
    · rw [if_pos (by omega)]
  count := rfl
  entries := ⟨[], by simp, by simp, rfl⟩

/-- An interface for which there is no room is counted. -/
theorem skip {ifa : IfAddr} (h : Filtered ifD numIfs (found + 1) eligible calls result)
    (hroom : found + 1 > numIfs) : Filtered ifD numIfs found (ifa :: eligible) calls result where
  rc := by
    rw [h.rc, List.length_cons, Nat.add_right_comm, Nat.add_assoc]
  count := by
    rw [h.count, List.length_cons, Nat.add_right_comm, Nat.add_assoc]
  entries := by
    obtain ⟨entries, hresult, hdescribes, hcalls⟩ := h.entries
    have hnone : numIfs - (found + 1) = 0 := by omega
    have hnone' : numIfs - found = 0 := by omega
    rw [hnone, List.take_zero, List.forall₂_nil_left_iff] at hdescribes
    subst hdescribes
    refine ⟨[], ?_, by simp [hnone'], hcalls⟩
    simpa using hresult

/-- An interface for which there is room is stored and counted. -/
theorem store {ifa : IfAddr} {entry : IfData} (hroom : found < numIfs)
    (hlength : found < ifD.length) (hentry : ifa.Describes entry)
    (h : Filtered (ifD.set found entry) numIfs (found + 1) eligible calls result) :
    Filtered ifD numIfs found (ifa :: eligible) (entry.nameCall :: calls) result where
  rc := by
    rw [h.rc, List.length_cons, Nat.add_right_comm, Nat.add_assoc]
  count := by
    rw [h.count, List.length_cons, Nat.add_right_comm, Nat.add_assoc]
  entries := by
    obtain ⟨entries, hresult, hdescribes, hcalls⟩ := h.entries
    have hroom' : numIfs - found = numIfs - (found + 1) + 1 := by omega
    refine ⟨entry :: entries, ?_, ?_, ?_⟩
    · have htake : (ifD.set found entry).take (found + 1) = ifD.take found ++ [entry] := by
        rw [List.take_add_one, List.take_set_of_le le_rfl, List.getElem?_set_self hlength,
          Option.toList_some]
      have hdrop : (ifD.set found entry).drop (found + 1 + entries.length) =
          ifD.drop (found + (entry :: entries).length) := by
        rw [List.drop_set_of_lt (by omega), List.length_cons, Nat.add_right_comm, Nat.add_assoc]
      rw [hresult, htake, hdrop, List.append_assoc _ [entry], List.singleton_append]
    · rw [hroom', List.take_succ_cons]
      exact .cons hentry hdescribes
    · rw [hcalls, List.map_cons]

end Filtered

/-- What the loop and what follows it return for any list of interfaces, where the names could be
had. -/
theorem populateLoop_filters {numIfs : ℕ} (ifaddrs : List IfAddr) {found : ℕ} {ifD : List IfData}
    (hroom : numIfs ≤ ifD.length) (w : World) :
    Finishes (fun result w' => ∃ calls, w'.calls = w.calls ++ calls ∧
        (Named calls → Filtered ifD numIfs found (ifaddrs.filter IfAddr.eligible) calls result))
      (populateLoop numIfs ifaddrs found ifD) w := by
  induction ifaddrs generalizing found ifD w with
  | nil => exact ⟨_, rfl, [], (List.append_nil _).symm, fun _ => .nil⟩
  | cons ifa rest ih =>
    unfold populateLoop
    rw [IfAddr.usable_eq]
    cases heligible : ifa.eligible with
    | false =>
      rw [List.filter_cons_of_neg (by simp [heligible])]
      exact ih hroom w
    | true =>
      obtain ⟨addr, haddr⟩ := ifa.exists_addr heligible
      rw [List.filter_cons_of_pos heligible, if_pos rfl, haddr]
      refine .ite (fun hfull => ?_) fun hspace => ?_
      · refine Finishes.mono (ih hroom w) ?_
        rintro result w' ⟨calls, hcalls, hfiltered⟩
        exact ⟨calls, hcalls, fun hnamed => (hfiltered hnamed).skip hfull⟩
      rw [finishes_sys]
      rintro (_ | name)
      · refine ⟨_, rfl, [⟨.getnameinfo addr, none⟩], rfl, fun hnamed => ?_⟩
        exact absurd (List.mem_singleton_self _) (hnamed addr)
      · have hfound : found < ifD.length := by omega
        have hset : setEntry ifD found ⟨name, ifa.ifaName, addr⟩
            (w.called (.getnameinfo addr) (some name)) =
            .pure (.ok (ifD.set found ⟨name, ifa.ifaName, addr⟩),
              w.called (.getnameinfo addr) (some name)) := by
          rw [setEntry, if_pos hfound]
        refine .of_eq hset (Finishes.mono (ih (by rwa [List.length_set]) _) ?_)
        rintro result w' ⟨calls, hcalls, hfiltered⟩
        refine ⟨⟨.getnameinfo addr, some name⟩ :: calls, ?_, fun hnamed => ?_⟩
        · rw [hcalls, World.called, List.append_assoc, List.singleton_append]
        · have hrest : Named calls := fun other hmem => hnamed other (List.mem_cons_of_mem _ hmem)
          exact (hfiltered hrest).store (by omega) hfound ⟨rfl, haddr⟩

/-- For every array and every capacity within it: the function asks for the list of interfaces, and
then for names and nothing else. Without a list it fails and changes nothing. For every list, where
the names could be had: no entry outside the array is written, the eligible interfaces are in front
of the array in their order as far as there is room, the rest of the array is as it was, `*numIfs`
is the number of all eligible interfaces, and the call succeeds exactly if that is at most the
capacity. -/
theorem populateInterfaceData_filters (ifD : List IfData) (numIfs : ℕ)
    (hroom : numIfs ≤ ifD.length) (w : World) :
    Finishes (fun result w' => ∃ listed names,
        w'.calls = w.calls ++ ⟨.getifaddrs, listed⟩ :: names ∧
          match listed with
          | none => names = [] ∧ result = (socketError, ifD, numIfs)
          | some ifaddrs => Named names →
            Filtered ifD numIfs 0 (ifaddrs.filter IfAddr.eligible) names result)
      (populateInterfaceData ifD numIfs) w := by
  rw [populateInterfaceData, finishes_sys]
  rintro (_ | ifaddrs)
  · exact ⟨_, rfl, none, [], rfl, rfl, rfl⟩
  · refine Finishes.mono (populateLoop_filters ifaddrs hroom _) ?_
    rintro result w' ⟨names, hcalls, hfiltered⟩
    refine ⟨some ifaddrs, names, ?_, hfiltered⟩
    rw [hcalls, World.called, List.append_assoc, List.singleton_append]

/-- The loopback interface and two others. -/
def threeInterfaces : List IfAddr :=
  [⟨"lo", some ⟨.inet, 0x0100007f, 0⟩, true, true, true⟩,
    ⟨"eth0", some ⟨.inet, 0x0100000a, 0⟩, true, true, false⟩,
    ⟨"eth1", some ⟨.inet, 0x0200000a, 0⟩, true, true, false⟩]

/-- The system has these interfaces and every call succeeds. -/
def threeInterfacesReply : (op : SysCall) → SysReply op
  | .getifaddrs => some threeInterfaces
  | op => op.success

/-- With room for one of two eligible interfaces the first is stored, both are counted, and the call
fails. -/
theorem populateInterfaceData_filters_overfull :
    ((populateInterfaceData [.unset] 1 .initial).resolve threeInterfacesReply).1 =
        .ok (socketError, [⟨"10.0.0.1", "eth0", ⟨.inet, 0x0100000a, 0⟩⟩], 2) ∧
      Filtered [.unset] 1 0 (threeInterfaces.filter IfAddr.eligible)
        [⟨.getnameinfo ⟨.inet, 0x0100000a, 0⟩, some "10.0.0.1"⟩]
        (socketError, [⟨"10.0.0.1", "eth0", ⟨.inet, 0x0100000a, 0⟩⟩], 2) := by
  have hrun : ((populateInterfaceData [.unset] 1 .initial).resolve threeInterfacesReply).1 =
      .ok (socketError, [⟨"10.0.0.1", "eth0", ⟨.inet, 0x0100000a, 0⟩⟩], 2) := rfl
  obtain ⟨value, hvalue, listed, names, hcalls, hlisted⟩ :=
    (populateInterfaceData_filters [.unset] 1 (by decide) .initial).resolve threeInterfacesReply
  cases Except.ok.inj (hrun.symm.trans hvalue)
  have hmade : ((populateInterfaceData [.unset] 1 .initial).resolve threeInterfacesReply).2.calls =
      [⟨.getifaddrs, some threeInterfaces⟩,
        ⟨.getnameinfo ⟨.inet, 0x0100000a, 0⟩, some "10.0.0.1"⟩] := rfl
  cases hmade.symm.trans hcalls
  refine ⟨hrun, hlisted fun other hmem => ?_⟩
  cases List.mem_singleton.mp hmem

end VirtualFirmware.Discovery
