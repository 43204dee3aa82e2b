import VirtualFirmware.Device.Effects
import VirtualFirmware.Library.SerialBits

/-!
# The serial interface of the EEPROM

The guest drives three lines through `EECD`: select, clock and data. The chip takes a bit when the
clock rises, and turns to the next bit of its memory when the clock falls. Nine bits after it was
selected it has a command. If that is to read a word, it gives out the bits of this word and of
those that follow, the highest first.
-/

namespace VirtualFirmware.Device

open Library

/-- What the chip was told since it was selected: the bits of the command, and how often the clock
fell since the command was complete. -/
structure Heard where
  bits : List Bool
  falls : ℕ
deriving DecidableEq, Repr

/-- The clock rises with a bit on the data line; a command has nine bits. -/
def Heard.rise (bit : Bool) (heard : Heard) : Heard :=
  if heard.bits.length < 9 then { heard with bits := heard.bits ++ [bit] } else heard

/-- The clock falls. -/
def Heard.fall (heard : Heard) : Heard :=
  if heard.bits.length < 9 then heard else { heard with falls := heard.falls + 1 }

/-- The lines as the guest has set them, and what it told the chip by this. -/
structure Bus where
  lines : UInt32
  heard : Heard
deriving DecidableEq, Repr

/-- The guest sets the lines. A command begins when the chip is selected, and the chip sees the
clock only while it is selected. -/
def Bus.drive (val : UInt32) (bus : Bus) : Bus where
  lines := val
  heard :=
    if val &&& 2 = 0 then bus.heard
    else
      let heard := if bus.lines &&& 2 = 0 then ⟨[], 0⟩ else bus.heard
      if val &&& 1 = bus.lines &&& 1 then heard
      else if val &&& 1 = 0 then heard.fall
      else heard.rise (val &&& 4 ≠ 0)

/-- The command that reads the word at an address: a start bit, the operation, and the address. -/
def readCommand (address : ℕ) : List Bool :=
  [true, true, false] ++ (List.range 6).map fun i => address.testBit (5 - i)

/-- The bits of the words from an address on; behind the last word comes the first. -/
def serialBit (memory : ℕ → UInt16) (address i : ℕ) : Bool :=
  wordBit (memory ((address + i / 16) % 64)) (i % 16)

/-- Sixteen bits in a row are a word of the memory. -/
theorem shiftIn_serialBits (memory : ℕ → UInt16) (address i : ℕ) :
    shiftIn ((List.range 16).map fun j => serialBit memory address (16 * i + j)) =
      memory ((address + i) % 64) := by
  have hbits : ∀ j ∈ List.range 16,
      serialBit memory address (16 * i + j) = wordBit (memory ((address + i) % 64)) j := by
    intro j hj
    have hj16 : j < 16 := List.mem_range.mp hj
    unfold serialBit
    rw [show (16 * i + j) / 16 = i by omega, show (16 * i + j) % 16 = j by omega]
  rw [List.map_congr_left hbits, shiftIn_wordBits]

namespace EecdState

/-- The chip was selected and knows no command. -/
def clear (e : EecdState) : EecdState :=
  { e with valIn := 0, bitnumIn := 0, bitnumOut := 0, reading := 0 }

/-- The clock falls. -/
def fall (e : EecdState) : EecdState := { e with bitnumOut := e.bitnumOut + 1 }

/-- The clock rises with a bit on the data line. -/
def rise (bit : Bool) (e : EecdState) : EecdState :=
  let valIn := e.valIn <<< 1 ||| if bit then 1 else 0
  if e.bitnumIn + 1 = 9 ∧ e.reading = 0 then
    { e with
      valIn
      bitnumIn := e.bitnumIn + 1
      bitnumOut := (((valIn &&& 0x3f) <<< 4) - 1).toUInt16
      reading := if (valIn >>> 6) &&& 7 = 6 then 1 else 0 }
  else { e with valIn, bitnumIn := e.bitnumIn + 1 }

/-- The lines change. -/
def drive (val : UInt32) (e : EecdState) : EecdState :=
  let lines : EecdState := { e with oldEecd := val &&& 0x77 }
  if val &&& 2 = 0 then lines
  else
    let lines := if (val ^^^ e.oldEecd) &&& 2 ≠ 0 then lines.clear else lines
    if (val ^^^ e.oldEecd) &&& 1 = 0 then lines
    else if val &&& 1 = 0 then lines.fall
    else lines.rise (val &&& 4 ≠ 0)

end EecdState

/-- `set_eecd` is a change of the lines. -/
theorem setEecd_eq (s : E1000State) (index : ℕ) (val : UInt32) :
    setEecd s index val = { s with eecdState := s.eecdState.drive val } := by
  unfold setEecd EecdState.drive EecdState.clear
  dsimp only
  split
  · rfl
  · -- What the chip knows when the edge of the clock comes.
    generalize (if (val ^^^ s.eecdState.oldEecd) &&& 2 ≠ 0 then _ else _ : EecdState) = e
    split
    · rfl
    · split
      · rfl
      · unfold EecdState.rise
        simp only [decide_eq_true_iff]
        split <;> rfl

/-- The bits of a command as `val_in` collects them. -/
def commandWord (bits : List Bool) : UInt32 :=
  bits.foldl (fun valIn bit => valIn <<< 1 ||| if bit then 1 else 0) 0

/-- The chip is where the protocol has brought it. Until it has a command it collects the bits;
after the command to read an address it is as many bits further as the clock fell. -/
structure Hears (heard : Heard) (e : EecdState) : Prop where
  size : heard.bits.length ≤ 9
  start : heard.bits.length < 9 → heard.falls = 0
  collects : heard.bits.length < 9 →
    e.valIn = commandWord heard.bits ∧ e.bitnumIn = UInt16.ofNat heard.bits.length ∧ e.reading = 0
  reads : ∀ address < 64, heard.bits = readCommand address →
    e.reading = 1 ∧ e.bitnumOut = UInt16.ofNat (16 * address + 65535 + heard.falls)

/-- A read command as the chip collects it. -/
theorem commandWord_readCommand : ∀ address < 64,
    (commandWord (readCommand address) >>> 6) &&& 7 = 6 ∧
      (((commandWord (readCommand address) &&& 0x3f) <<< 4) - 1).toUInt16 =
        UInt16.ofNat (16 * address + 65535 + 0) := by
  decide

/-- A command has nine bits. -/
theorem length_readCommand (address : ℕ) : (readCommand address).length = 9 := rfl

namespace Hears

variable {heard : Heard} {e : EecdState}

/-- A chip that was just selected has heard no bits. -/
theorem clear (e : EecdState) : Hears ⟨[], 0⟩ e.clear where
  size := Nat.zero_le 9
  start := fun _ => rfl
  collects := fun _ => ⟨rfl, rfl, rfl⟩
  reads := fun address _ hbits =>
    absurd (congrArg List.length hbits) (by rw [length_readCommand]; decide)

/-- A change of the lines alone does not change what the chip has heard. -/
theorem lines (h : Hears heard e) (val : UInt32) : Hears heard { e with oldEecd := val } :=
  ⟨h.size, h.start, h.collects, h.reads⟩

/-- When the clock falls the chip still matches what it has heard. -/
theorem fall (h : Hears heard e) : Hears heard.fall e.fall := by
  unfold Heard.fall
  split
  · rename_i hshort
    refine ⟨h.size, h.start, h.collects, fun address _ hbits => ?_⟩
    rw [hbits, length_readCommand] at hshort
    exact absurd hshort (by decide)
  · rename_i hlong
    refine ⟨h.size, fun hshort => absurd hshort hlong, fun hshort => absurd hshort hlong,
      fun address haddress hbits => ?_⟩
    obtain ⟨hreading, hout⟩ := h.reads address haddress hbits
    refine ⟨hreading, ?_⟩
    change e.bitnumOut + 1 = UInt16.ofNat (16 * address + 65535 + (heard.falls + 1))
    rw [hout, ← Nat.add_assoc]
    exact (UInt16.ofNat_add _ 1).symm

/-- When the clock rises the chip has heard one more bit. -/
theorem rise (h : Hears heard e) (bit : Bool) : Hears (heard.rise bit) (e.rise bit) := by
  unfold Heard.rise
  split
  · rename_i hshort
    obtain ⟨hval, hnum, hreading⟩ := h.collects hshort
    have hvalIn : (e.valIn <<< 1 ||| if bit then 1 else 0) = commandWord (heard.bits ++ [bit]) := by
      rw [hval, commandWord, commandWord, List.foldl_append]
      rfl
    have hcount : e.bitnumIn + 1 = UInt16.ofNat (heard.bits ++ [bit]).length := by
      rw [hnum, List.length_append]
      exact (UInt16.ofNat_add _ 1).symm
    have hlength : (heard.bits ++ [bit]).length = heard.bits.length + 1 := List.length_append
    unfold EecdState.rise
    dsimp only
    rw [hvalIn, hcount, hlength]
    by_cases hlast : heard.bits.length = 8
    · -- The command is complete with this bit.
      have hcommand : ¬ (heard.bits ++ [bit]).length < 9 := by omega
      rw [hlast, if_pos ⟨rfl, hreading⟩]
      refine ⟨hlength.le.trans (by omega), fun hmore => absurd hmore hcommand,
        fun hmore => absurd hmore hcommand, fun address haddress hbits => ?_⟩
      obtain ⟨hop, hout⟩ := commandWord_readCommand address haddress
      dsimp only at hbits ⊢
      rw [hbits, if_pos hop, hout, h.start hshort]
      exact ⟨rfl, rfl⟩
    · have hnot : UInt16.ofNat (heard.bits.length + 1) ≠ 9 := fun hnine => by
        have hnat := congrArg UInt16.toNat hnine
        rw [UInt16.toNat_ofNat', Nat.mod_eq_of_lt (by omega)] at hnat
        exact hlast (Nat.succ_injective hnat)
      rw [if_neg fun hcommand => hnot hcommand.1]
      refine ⟨hlength.le.trans (by omega), fun _ => h.start hshort,
        fun _ => ⟨rfl, by rw [hlength], hreading⟩, fun address _ hbits => ?_⟩
      have hnine := congrArg List.length hbits
      rw [hlength, length_readCommand] at hnine
      exact absurd (Nat.succ_injective hnine) hlast
  · rename_i hlong
    refine ⟨h.size, fun hshort => absurd hshort hlong, fun hshort => absurd hshort hlong,
      fun address haddress hbits => ?_⟩
    obtain ⟨hreading, hout⟩ := h.reads address haddress hbits
    have hnot : ¬ (e.bitnumIn + 1 = 9 ∧ e.reading = 0) := fun hcommand => by
      rw [hreading] at hcommand
      exact absurd hcommand.2 (by decide)
    unfold EecdState.rise
    dsimp only
    rw [if_neg hnot]
    exact ⟨hreading, hout⟩

end Hears

/-- The chip sees the lines of the bus and is where the protocol has brought it. -/
structure Coupled (bus : Bus) (e : EecdState) : Prop where
  lines : e.oldEecd = bus.lines &&& 0x77
  heard : Hears bus.heard e

/-- Whatever the chip was told before, it follows a bus on which no command to read was heard. -/
theorem coupled_unknown {e : EecdState} (h : e.oldEecd &&& 0x77 = e.oldEecd) :
    Coupled ⟨e.oldEecd, ⟨List.replicate 9 false, 0⟩⟩ e where
  lines := h.symm
  heard := {
    size := le_rfl
    start := fun hshort => absurd hshort (Nat.lt_irrefl 9)
    collects := fun hshort => absurd hshort (Nat.lt_irrefl 9)
    reads := fun _ _ hbits => absurd (congrArg List.head? hbits) (by simp [readCommand]) }

/-- The chip follows every change of the lines. -/
theorem Coupled.drive {bus : Bus} {e : EecdState} (h : Coupled bus e) (val : UInt32) :
    Coupled (bus.drive val) (e.drive val) := by
  have hmasked {mask : UInt32} (hmask : 0x77 &&& mask = mask) : e.oldEecd &&& mask =
      bus.lines &&& mask := by
    rw [h.lines, UInt32.and_assoc, hmask]
  have hclock : (val ^^^ e.oldEecd) &&& 1 = 0 ↔ val &&& 1 = bus.lines &&& 1 := by
    rw [xor_and_mask_eq_zero, hmasked rfl]
  have hselected (hval : ¬ val &&& 2 = 0) : (val ^^^ e.oldEecd) &&& 2 ≠ 0 ↔
      bus.lines &&& 2 = 0 := by
    rw [ne_eq, xor_and_mask_eq_zero, hmasked rfl]
    have hmask : (2 : UInt32).toBitVec = BitVec.twoPow 32 1 := rfl
    exact flag_ne_iff hmask hval
  have hlines := h.heard.lines (val &&& 0x77)
  refine ⟨?_, ?_⟩
  · unfold EecdState.drive EecdState.rise
    dsimp only
    split_ifs <;> rfl
  · unfold EecdState.drive Bus.drive
    dsimp only
    split
    · exact hlines
    · rename_i hval
      simp only [hclock, hselected hval]
      have hstart : Hears (if bus.lines &&& 2 = 0 then ⟨[], 0⟩ else bus.heard)
          (if bus.lines &&& 2 = 0 then EecdState.clear { e with oldEecd := val &&& 0x77 }
            else { e with oldEecd := val &&& 0x77 }) := by
        split
        · exact Hears.clear _
        · exact hlines
      split
      · exact hstart
      · split
        · exact hstart.fall
        · exact hstart.rise _

/-- The bits of the memory as the chip counts them. -/
theorem bit_eq_serialBit (memory : ℕ → UInt16) (address i : ℕ) {out : UInt16}
    (hout : out = UInt16.ofNat (16 * address + 65535 + (i + 1))) :
    (memory ((out >>> 4) &&& 0x3f).toNat >>> ((out &&& 0xf) ^^^ 0xf)) &&& 1 ≠ 0 ↔
      serialBit memory address i = true := by
  have hnat : out.toNat = (16 * address + i) % 2 ^ 16 := by
    rw [hout, UInt16.toNat_ofNat']
    omega
  have hword : ((out >>> 4) &&& 0x3f).toNat = (address + i / 16) % 64 := by
    rw [UInt16.toNat_and, UInt16.toNat_shiftRight]
    change out.toNat >>> 4 &&& 2 ^ 6 - 1 = _
    rw [Nat.and_two_pow_sub_one_eq_mod, Nat.shiftRight_eq_div_pow, hnat]
    omega
  have hlow : (out &&& 0xf).toNat = i % 16 := by
    rw [UInt16.toNat_and]
    change out.toNat &&& 2 ^ 4 - 1 = _
    rw [Nat.and_two_pow_sub_one_eq_mod, hnat]
    omega
  have hflip : ∀ low < 16, low ^^^ 15 = 15 - low := by decide
  have hshift : ((out &&& 0xf) ^^^ 0xf).toNat = 15 - i % 16 := by
    rw [UInt16.toNat_xor, hlow]
    exact hflip _ (Nat.mod_lt _ (by decide))
  rw [hword, serialBit, wordBit, Nat.testBit_eq_decide_div_mod_eq, decide_eq_true_iff, ne_eq,
    ← UInt16.toNat_inj, UInt16.toNat_and, UInt16.toNat_shiftRight, hshift]
  change ¬ _ &&& 1 = 0 ↔ _
  rw [Nat.and_one_is_mod, Nat.mod_eq_of_lt (by omega : 15 - i % 16 < 16), Nat.shiftRight_eq_div_pow]
  omega

/-- What `get_eecd` shows on the output line: after the command to read an address, the bits from
there on, one more each time that the clock falls. -/
theorem getEecd_serialBit {bus : Bus} {s : E1000State} (h : Coupled bus s.eecdState) {address i : ℕ}
    (haddress : address < 64) (hheard : bus.heard = ⟨readCommand address, i + 1⟩) (index : ℕ) :
    (getEecd s index).1 &&& 8 ≠ 0 ↔ serialBit s.eepromData address i = true := by
  obtain ⟨hreading, hout⟩ := h.heard.reads address haddress (by rw [hheard])
  rw [hheard] at hout
  have hreads : ¬ s.eecdState.reading = 0 := by
    rw [hreading]
    decide
  have hset (ret : UInt32) : (ret ||| 8) &&& 8 ≠ 0 := by
    rw [UInt32.and_comm, UInt32.or_comm, and_or_of_and UInt32.and_self]
    decide
  have hunset : (0x180 ||| s.eecdState.oldEecd) &&& 8 = 0 := by
    rw [h.lines, or_and_mask, UInt32.and_assoc]
    exact UInt32.zero_or.trans UInt32.and_zero
  rw [← bit_eq_serialBit s.eepromData address i hout]
  unfold getEecd
  dsimp only
  split
  · rename_i hbit
    exact iff_of_true (hset _) (hbit.resolve_left hreads)
  · rename_i hbit
    exact iff_of_false (not_not.mpr hunset) fun hup => hbit (.inr hup)

/-- The interface and the memory are as before. -/
structure SameEeprom (s s' : E1000State) : Prop where
  state : s'.eecdState = s.eecdState
  memory : s'.eepromData = s.eepromData

/-- `set_mdic` does not use the EEPROM. -/
theorem setMdic_eeprom (s : E1000State) (index : ℕ) (val : UInt32) :
    SameEeprom s (setMdic s index val) := by
  unfold setMdic
  dsimp only
  split_ifs <;> exact ⟨rfl, rfl⟩

/-- No other handler uses the EEPROM. -/
theorem macregWriteops_eeprom : ∀ entry ∈ macregWriteops, ∀ handler, entry.op = .device handler →
    ∀ s index val, entry.Covers index → index ≠ MacReg.eecd.index →
      SameEeprom s (handler s index val) := by
  simp only [macregWriteops, List.forall_mem_cons]
  and_intros <;> rintro handler hop s index val ⟨hfirst, hlast⟩ hindex <;> cases hop <;>
    first
    | exact ⟨rfl, rfl⟩
    | exact setMdic_eeprom s index val
    | exact absurd (Nat.le_antisymm hlast hfirst) hindex

/-- A write to another register that acts on the device alone does not use the EEPROM. -/
theorem writeopOf_eeprom {index : ℕ} {handler : E1000State → ℕ → UInt32 → E1000State}
    (h : writeopOf index = some (.device handler)) (hindex : index ≠ MacReg.eecd.index)
    (s : E1000State)
    (val : UInt32) : SameEeprom s (handler s index val) := by
  obtain ⟨entry, hfind, hop⟩ := Option.map_eq_some_iff.mp h
  have hcovers : entry.Covers index := by simpa using List.find?_some hfind
  exact macregWriteops_eeprom entry (List.mem_of_find?_eq_some hfind) handler hop s index val
    hcovers hindex

end VirtualFirmware.Device
