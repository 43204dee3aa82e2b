import VirtualFirmware.Device.TailWrite
import VirtualFirmware.Library.Calls

/-!
# How an exchange ended

How the exchange with the firmware ended follows from the replies to its calls: it failed, or a
response came and with it the bytes of its return buffer. This determines the descriptor that a
tail write puts back into its slot, and what else it leaves in guest RAM.
-/

namespace VirtualFirmware.Device

open Library Messaging Adminq

/-- How the exchange with the firmware ended: without a response, or with a response and the bytes
of its return buffer. -/
inductive Outcome where
  | failed
  | answered (response : AqDesc) (returned : List UInt8)
deriving DecidableEq, Repr

/-- The call closes the connection. -/
def closes : Sigma DeviceReply → Bool
  | ⟨.close _, _⟩ => true
  | _ => false

/-- What a call received. -/
def receivedBy : Sigma DeviceReply → Option Received
  | ⟨.message _ (.recvdata _ _), received⟩ => some received
  | _ => none

/-- The outcome of an exchange with these replies; a failed exchange closes the connection. -/
def Outcome.of (calls : List (Sigma DeviceReply)) : Outcome :=
  if calls.any closes then .failed
  else match calls.filterMap receivedBy with
    | [] => .failed
    | first :: rest =>
      let response := AqDesc.ofRegion first.data
      .answered response (rest.flatMap fun second => second.data.load response.datalen.toNat)

/-- Calls that close the connection are a failed exchange. -/
theorem Outcome.of_closes {calls : List (Sigma DeviceReply)} (h : calls.any closes = true) :
    Outcome.of calls = .failed := by
  rw [Outcome.of, if_pos h]

/-- Calls that keep it and receive something are an answered one. -/
theorem Outcome.of_received {calls : List (Sigma DeviceReply)} {first : Received}
    {rest : List Received} (hopen : calls.any closes = false)
    (h : calls.filterMap receivedBy = first :: rest) :
    Outcome.of calls = .answered (AqDesc.ofRegion first.data)
      (rest.flatMap fun second => second.data.load (AqDesc.ofRegion first.data).datalen.toNat) := by
  rw [Outcome.of, if_neg (by rw [hopen]; decide), h]

/-- The descriptor that is written back. -/
def Outcome.writtenDesc (desc : AqDesc) : Outcome → AqDesc
  | .failed => completed desc
  | .answered response _ => response

/-- Guest RAM before the descriptor is written back: the return buffer is copied to where the
response says, while an echo of the device itself copies a buffer to where it was read. -/
def Outcome.copied (ram : AddressSpace) : Outcome → AddressSpace
  | .failed => ram
  | .answered response returned => ram.write response.bufferAddr returned

/-- What an exchange can do to the descriptor and to guest RAM, given all its calls. -/
def EndsWith (m : Machine) (desc : AqDesc) (calls : List (Sigma DeviceReply))
    (result : (Int × AqDesc) × Machine) : Prop :=
  result.2.ram = (Outcome.of calls).copied m.ram ∧
    result.1 = match Outcome.of calls with
      | .failed => (-1, desc)
      | .answered response _ => (0, response)

section Exchange

variable {m m' : Machine} (desc : AqDesc) {calls : List (Sigma DeviceReply)}

/-- Dropping the connection ends the exchange without an effect. -/
theorem sendAqErr_endsWith (h : m'.ram = m.ram) :
    (sendAqErr desc m').EveryRun fun rest => EndsWith m desc (calls ++ rest) := by
  intro reply
  have hfailed : Outcome.of (calls ++ [⟨.close m'.dev.fs, reply⟩]) = .failed :=
    Outcome.of_closes (List.any_eq_true.mpr
      ⟨_, List.mem_append_right _ (List.mem_singleton_self _), rfl⟩)
  change EndsWith m desc (calls ++ [⟨.close m'.dev.fs, reply⟩]) _
  rw [EndsWith, hfailed]
  exact ⟨h, rfl⟩

/-- A response without a return buffer, or with one that was copied, ends the exchange. -/
theorem endsWith_answered {first : Received} (rest : List Received) {final : Machine}
    (hopen : calls.any closes = false) (h : calls.filterMap receivedBy = first :: rest)
    (hram : final.ram = m.ram.write (AqDesc.ofRegion first.data).bufferAddr
      (rest.flatMap fun second =>
        second.data.load (AqDesc.ofRegion first.data).datalen.toNat)) :
    EndsWith m desc calls ((0, AqDesc.ofRegion first.data), final) := by
  rw [EndsWith, Outcome.of_received hopen h]
  exact ⟨hram, rfl⟩

/-- Receiving the return buffer ends the exchange. -/
theorem recvAqBuffer_endsWith (h : m'.ram = m.ram) (hopen : calls.any closes = false)
    {first : Received} (hfirst : calls.filterMap receivedBy = [first]) :
    (recvAqBuffer desc (AqDesc.ofRegion first.data) m').EveryRun
      fun rest => EndsWith m desc (calls ++ rest) := by
  by_cases hdata : (AqDesc.ofRegion first.data).datalen > 0
  · rw [recvAqBuffer_of_pos m' hdata]
    refine Interaction.everyRun_after fun second =>
      Interaction.everyRun_ite (sendAqErr_endsWith desc h) ?_
    refine endsWith_answered desc [second] ?_ ?_ ?_
    · simp [hopen, closes]
    · simp [hfirst, receivedBy]
    · change m'.ram.write _ _ = _
      rw [h, List.flatMap_singleton]
  · rw [recvAqBuffer_of_not_pos m' hdata]
    refine endsWith_answered desc [] ?_ ?_ ?_
    · simpa using hopen
    · simpa using hfirst
    · rw [List.flatMap_nil, AddressSpace.write_nil, h]

/-- Waiting for the response goes on to its return buffer. -/
theorem recvAqResponse_endsWith (h : m'.ram = m.ram) (hopen : calls.any closes = false)
    (hnothing : calls.filterMap receivedBy = []) :
    (recvAqResponse desc m').EveryRun fun rest => EndsWith m desc (calls ++ rest) := by
  refine Interaction.everyRun_after fun received =>
    Interaction.everyRun_ite (sendAqErr_endsWith desc h) ?_
  refine recvAqBuffer_endsWith desc h ?_ ?_
  · simp [hopen, closes]
  · simp [hnothing, receivedBy]

/-- Sending the command's buffer goes on to the response. -/
theorem sendAqBuffer_endsWith (h : m'.ram = m.ram) (hopen : calls.any closes = false)
    (hnothing : calls.filterMap receivedBy = []) :
    (sendAqBuffer desc m').EveryRun fun rest => EndsWith m desc (calls ++ rest) := by
  by_cases hdata : desc.datalen > 0
  · rw [sendAqBuffer_of_pos m' hdata]
    refine Interaction.everyRun_after fun sent =>
      Interaction.everyRun_ite (sendAqErr_endsWith desc h) ?_
    refine recvAqResponse_endsWith desc h ?_ ?_
    · simp [hopen, closes]
    · simp [hnothing, receivedBy]
  · rw [sendAqBuffer_of_not_pos m' hdata]
    exact recvAqResponse_endsWith desc h hopen hnothing

/-- Sending the command goes on to its buffer. -/
theorem sendAqDesc_endsWith (h : m'.ram = m.ram) (hopen : calls.any closes = false)
    (hnothing : calls.filterMap receivedBy = []) :
    (sendAqDesc desc m').EveryRun fun rest => EndsWith m desc (calls ++ rest) := by
  refine Interaction.everyRun_after fun sent =>
    Interaction.everyRun_ite (sendAqErr_endsWith desc h) ?_
  refine sendAqBuffer_endsWith desc h ?_ ?_
  · simp [hopen, closes]
  · simp [hnothing, receivedBy]

/-- Whatever the calls return, an exchange ends as they say. -/
theorem e1000SendAqCmd_endsWith (m : Machine) :
    (e1000SendAqCmd desc m).EveryRun (EndsWith m desc) := by
  change ((if m.dev.fs = invalidSocket then _ else _ : DeviceM _) m).EveryRun
    fun rest => EndsWith m desc ([] ++ rest)
  refine Interaction.everyRun_ite (Interaction.everyRun_after fun fs => ?_)
    (sendAqDesc_endsWith desc rfl rfl rfl)
  exact Interaction.everyRun_ite (sendAqErr_endsWith desc rfl)
    (sendAqDesc_endsWith desc rfl rfl rfl)

end Exchange

/-- A command is carried out as its outcome says. -/
theorem executeAqCmd_outcome (desc : AqDesc) (m : Machine) :
    (executeAqCmd desc m).EveryRun fun calls result =>
      result.1 = (Outcome.of calls).writtenDesc desc ∧
        result.2.ram = (Outcome.of calls).copied m.ram := by
  rw [executeAqCmd_eq]
  refine (e1000SendAqCmd_endsWith desc m).bind_pure fun calls result h => ?_
  obtain ⟨⟨rc, desc'⟩, m'⟩ := result
  obtain ⟨hram, hresult⟩ := h
  cases houtcome : Outcome.of calls with
  | failed =>
    rw [houtcome] at hram hresult
    cases hresult
    exact ⟨_, settleAqCmd_failed (by decide : (-1 : Int) < 0) desc m', rfl,
      (machineProcessed_ram desc m').trans hram⟩
  | answered response returned =>
    rw [houtcome] at hram hresult
    cases hresult
    refine ⟨_, settleAqCmd_answered (by decide : ¬ (0 : Int) < 0) desc' m', rfl, hram⟩

/-- What a tail write leaves in guest RAM, whatever the calls return: the return buffer that was
copied, and the descriptor in its slot. -/
theorem e1000SetAtqTail_ram (val : UInt32) (m : Machine) :
    (e1000SetAtqTail pfAtqt val m).EveryRun fun calls result =>
      result.2.ram = ((Outcome.of calls).copied m.ram).write m.headSlot
        ((Outcome.of calls).writtenDesc m.headDesc).bytes := by
  rw [e1000SetAtqTail_eq]
  refine (executeAqCmd_outcome m.headDesc (m.fetched val)).bind_pure fun calls result h => ?_
  exact ⟨_, rfl, by rw [Machine.finished, h.1, h.2]; rfl⟩

end VirtualFirmware.Device
