import Mathlib.Data.List.Induction
import VirtualFirmware.Network.CardFrame

/-!
# Reading the EEPROM of the card

The guest reads the EEPROM bit by bit, with accesses to `EECD` alone. What else happens to the card
meanwhile does not matter: the bits that it samples, one for each period of the clock, make the
words of the memory.
-/

namespace VirtualFirmware.Network

open Library Device

/-- The guest at the serial interface: the bus that it drives, and the bits it has sampled, each
with what the chip was told before. -/
structure Listener where
  bus : Bus
  samples : List (Heard × Bool)
deriving DecidableEq, Repr

/-- What an event means to the guest. -/
def Listener.see (listener : Listener) : CardEvent → Listener
  | .write addr val =>
    if regIndex addr = MacReg.eecd.index then { listener with bus := listener.bus.drive val }
    else listener
  | .read addr value =>
    if regIndex addr = MacReg.eecd.index then
      { listener with
        samples := listener.samples ++ [(listener.bus.heard, decide (value &&& 8 ≠ 0))] }
    else listener
  | .packet _ _ => listener
  | .link _ => listener

/-- The bits that the guest samples in a run. -/
def sampled (bus : Bus) (events : List CardEvent) : List (Heard × Bool) :=
  (events.foldl Listener.see ⟨bus, []⟩).samples

/-- The bit is the one of the memory that the chip was told to read. -/
def Sampled (memory : ℕ → UInt16) (sample : Heard × Bool) : Prop :=
  ∀ address < 64, ∀ i, sample.1 = ⟨readCommand address, i + 1⟩ →
    sample.2 = serialBit memory address i

/-- The chip follows the guest, and the guest has seen the memory. -/
structure Tracks (memory : ℕ → UInt16) (listener : Listener) (s : E1000State) : Prop where
  bus : Coupled listener.bus s.eecdState
  data : s.eepromData = memory
  samples : ∀ sample ∈ listener.samples, Sampled memory sample

section Steps

variable {n n' : Nic} {memory : ℕ → UInt16} {listener : Listener}

/-- A step that does not use the EEPROM keeps the chip in line with the listener. -/
theorem Tracks.same {s s' : E1000State} (h : Tracks memory listener s) (hsame : SameEeprom s s') :
    Tracks memory listener s' := by
  refine ⟨?_, hsame.memory.trans h.data, h.samples⟩
  rw [hsame.state]
  exact h.bus

/-- A write to `EECD` drives the bus. -/
theorem cardWrite_eecd {fuel addr : ℕ} {val : UInt32}
    {program : Interaction DeviceOp DeviceReply Nic} (h : cardWrite fuel addr val n = .ok program)
    (hreturns : program.Returns n')
    (hindex : regIndex addr = MacReg.eecd.index) :
    n'.dev = { n.dev with eecdState := n.dev.eecdState.drive val } := by
  have hop : writeopOf (regIndex addr) = some (.device setEecd) := by
    rw [hindex]
    rfl
  rw [cardWrite_device hop h hreturns]
  exact setEecd_eq n.dev (regIndex addr) val

/-- A read of `EECD` is one of `get_eecd`. -/
theorem e1000MmioReadl_eecd {addr : ℕ} (hindex : regIndex addr = MacReg.eecd.index)
    (s : E1000State) :
    e1000MmioReadl addr s = getEecd s (regIndex addr) := by
  have hop : readopOf (regIndex addr) = some getEecd := by
    rw [hindex]
    rfl
  unfold e1000MmioReadl
  rw [hop]

/-- Every step of the card keeps guest and chip together. -/
theorem CardStep.tracks {fuel : ℕ} {event : CardEvent} (hstep : CardStep fuel n event n')
    (h : Tracks memory listener n.dev) : Tracks memory (listener.see event) n'.dev := by
  cases hstep with
  | @write addr val program _ hwrite hreturns =>
    unfold Listener.see
    dsimp only
    split
    · rename_i hindex
      rw [cardWrite_eecd hwrite hreturns hindex]
      exact ⟨h.bus.drive val, h.data, h.samples⟩
    · rename_i hindex
      exact h.same ((cardWrite_untouched hwrite hreturns).2 hindex)
  | read addr =>
    have hsame : Tracks memory listener (e1000MmioReadl addr n.dev).2 :=
      h.same (readEffect_untouched (e1000MmioReadl_effect addr n.dev)).eeprom
    unfold Listener.see
    dsimp only
    split
    · rename_i hindex
      refine ⟨hsame.bus, hsame.data,
        List.forall_mem_append.mpr ⟨h.samples, List.forall_mem_singleton.mpr ?_⟩⟩
      intro address haddress i hheard
      have hbit := getEecd_serialBit h.bus haddress hheard (regIndex addr)
      rw [h.data, ← e1000MmioReadl_eecd hindex] at hbit
      exact Bool.eq_iff_iff.mpr (decide_eq_true_iff.trans hbit)
    · exact hsame
  | packet hreceive =>
    exact h.same (reception_untouched (e1000Receive_reception fuel _ n _ hreceive)).eeprom
  | link down => exact h.same (linkStatus_untouched down n.dev).eeprom

end Steps

/-- Whatever happens to the card in a run, the guest reads the memory of the EEPROM: sixteen
samples, taken in the periods of the clock in which the chip gives out a word after the command to
read an address, make this word. -/
theorem cardRun_eeprom {fuel : ℕ} {n n' : Nic} {events : List CardEvent}
    (run : CardRun fuel n events n') {bus : Bus} (hbus : Coupled bus n.dev.eecdState) {address : ℕ}
    (haddress : address < 64) (i : ℕ)
    {samples : List (Heard × Bool)} (hsamples : samples ⊆ sampled bus events)
    (hperiods : samples.map Prod.fst = (List.range 16).map fun j =>
      ⟨readCommand address, 16 * i + j + 1⟩) :
    shiftIn (samples.map Prod.snd) = n.dev.eepromData ((address + i) % 64) := by
  have hstart : Tracks n.dev.eepromData ⟨bus, []⟩ n.dev := ⟨hbus, rfl, by simp⟩
  have hend := run.simulates Listener.see (fun listener n => Tracks _ listener n.dev)
    (fun _ _ _ _ hstep => hstep.tracks) hstart
  have hbits : samples.map Prod.snd =
      (List.range 16).map fun j => serialBit n.dev.eepromData address (16 * i + j) := by
    refine map_snd_of_map_fst hperiods fun sample hsample j hperiod => ?_
    exact hend.samples sample (hsamples hsample) address haddress (16 * i + j) hperiod
  rw [hbits, shiftIn_serialBits]

/-- The event of an access to `EECD`, which writes a value or reads. -/
def eecdEvent (n : Nic) : Option UInt32 → CardEvent
  | some val => .write 0x10 val
  | none => .read 0x10 (e1000MmioReadl 0x10 n.dev).1

/-- The card after an access to `EECD`. -/
def eecdAccess (n : Nic) : Option UInt32 → Nic
  | some val => n.mapDev fun s => setEecd s (regIndex 0x10) val
  | none => n.mapDev fun s => (e1000MmioReadl 0x10 s).2

/-- The events of accesses to `EECD`, and the card after them. -/
def eecdAccesses (n : Nic) (accesses : List (Option UInt32)) : List CardEvent × Nic :=
  accesses.foldl (fun (done : List CardEvent × Nic) access =>
    (done.1 ++ [eecdEvent done.2 access], eecdAccess done.2 access)) ([], n)

/-- Accesses to `EECD` are a run of the card. -/
theorem eecdAccesses_run (n : Nic) (accesses : List (Option UInt32)) :
    CardRun 0 n (eecdAccesses n accesses).1 (eecdAccesses n accesses).2 := by
  induction accesses using List.reverseRecOn with
  | nil => exact .start
  | append_singleton accesses access ih =>
    unfold eecdAccesses
    rw [List.foldl_append]
    refine .next ih ?_
    cases access with
    | some val => exact .write rfl (.pure _)
    | none => exact .read 0x10

/-- The chip is selected, the bits of a command go out, and sixteen bits come in. -/
def readWordAccesses (address : ℕ) : List (Option UInt32) :=
  some 2 :: (readCommand address).flatMap
    (fun bit => [some (if bit then 6 else 2), some (if bit then 7 else 3)]) ++
    (List.replicate 16 [some 2, none, some 3]).flatten

/-- A card with something in its EEPROM. -/
def eepromCard : Nic :=
  (default : Nic).mapDev fun s => { s with eepromData := fun i => if i = 1 then 0x5634 else 0 }

/-- The guest reads the word at address 1. -/
theorem cardRun_eeprom_readWord :
    CardRun 0 eepromCard (eecdAccesses eepromCard (readWordAccesses 1)).1
        (eecdAccesses eepromCard (readWordAccesses 1)).2 ∧
      shiftIn ((sampled ⟨0, ⟨List.replicate 9 false, 0⟩⟩
        (eecdAccesses eepromCard (readWordAccesses 1)).1).map Prod.snd) = 0x5634 := by
  have run := eecdAccesses_run eepromCard (readWordAccesses 1)
  have hbus : Coupled ⟨0, ⟨List.replicate 9 false, 0⟩⟩ eepromCard.dev.eecdState :=
    coupled_unknown (e := eepromCard.dev.eecdState) rfl
  exact ⟨run, cardRun_eeprom run hbus (by decide : 1 < 64) 0 (List.Subset.refl _)
    (by decide +kernel)⟩

end VirtualFirmware.Network
