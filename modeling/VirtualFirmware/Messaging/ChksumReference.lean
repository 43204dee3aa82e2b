import VirtualFirmware.Library.Reads
import VirtualFirmware.Library.WordXor
import VirtualFirmware.Messaging.Checksum

/-!
# The checksum and its reference

`chksum` once more, as a program that reads its bytes one by one: it asks only for bytes of the
message, and its result is the exclusive-or of the little-endian words of the message filled up with
zeros. So messages may be summed in parts, and zeros at the end do not show.
-/

namespace VirtualFirmware.Messaging

open Library

namespace Reads

/-- Code that reads bytes behind a pointer. -/
abbrev ReadM := Interaction ℕ fun _ => UInt8

/-- `data[i]`, as a 32-bit word. -/
def byteAt (i : ℕ) : ReadM UInt32 := do
  return (← Interaction.ask i).toUInt32

/-- `check ? data[i] : 0`. -/
def byteIf (check : Prop) [Decidable check] (i : ℕ) : ReadM UInt32 := do
  if check then byteAt i else return 0

/-- The word loop of `chksum`, returning the sum and the index at which it stopped. -/
def chksumLoop (stop i : ℕ) (sum : UInt32) : ReadM (UInt32 × ℕ) := do
  if i < stop then
    let value ← byteAt i
    let value := value ||| (← byteAt (i + 1)) <<< 8
    let value := value ||| (← byteAt (i + 2)) <<< 16
    let value := value ||| (← byteAt (i + 3)) <<< 24
    chksumLoop stop (i + 4) (sum ^^^ value)
  else return (sum, i)
termination_by stop - i

/-- `chksum`, with the reads it makes. -/
def chksum (length : UInt16) : ReadM UInt32 := do
  let extra := length.toNat % 4
  let (sum, i) ← chksumLoop (length.toNat - extra) 0 0
  if extra > 0 then
    let value ← byteIf (extra ≥ 1) i
    let value := value ||| (← byteIf (extra ≥ 2) (i + 1)) <<< 8
    let value := value ||| (← byteIf (extra ≥ 3) (i + 2)) <<< 16
    return sum ^^^ value
  else return sum

/-- On the bytes behind a pointer the loop computes the sum of the words. -/
theorem chksumLoop_resolve (data : Region) (rounds i : ℕ) (sum : UInt32) :
    (chksumLoop (i + 4 * rounds) i sum).resolve data = Messaging.chksumLoop data rounds i sum := by
  induction rounds generalizing i sum with
  | zero =>
    rw [chksumLoop, if_neg (by omega)]
    rfl
  | succ rounds ih =>
    have hstop : i + 4 * (rounds + 1) = i + 4 + 4 * rounds := by omega
    rw [chksumLoop, if_pos (by omega), hstop]
    exact ih (i + 4) _

/-- The loop asks only for bytes before its end, and stops there. -/
theorem chksumLoop_asks (rounds i : ℕ) (sum : UInt32) :
    (chksumLoop (i + 4 * rounds) i sum).Asks (· < i + 4 * rounds) ∧
      (chksumLoop (i + 4 * rounds) i sum).Always (·.2 = i + 4 * rounds) := by
  induction rounds generalizing i sum with
  | zero =>
    rw [chksumLoop, if_neg (by omega)]
    exact ⟨trivial, rfl⟩
  | succ rounds ih =>
    have hstop : i + 4 * (rounds + 1) = i + 4 + 4 * rounds := by omega
    rw [chksumLoop, if_pos (by omega), hstop]
    constructor
    · exact ⟨by omega, fun b0 =>
        ⟨by omega, fun b1 => ⟨by omega, fun b2 => ⟨by omega, fun b3 => (ih (i + 4) _).1⟩⟩⟩⟩
    · exact fun b0 b1 b2 b3 => (ih (i + 4) _).2

/-- The bytes that are left over are asked for one by one. -/
theorem byteIf_asks {check : Prop} [Decidable check] {i bound : ℕ} (h : check → i < bound) :
    (byteIf check i).Asks (· < bound) := by
  unfold byteIf
  split
  · exact ⟨h ‹_›, fun _ => trivial⟩
  · trivial

/-- Whatever the bytes are, only bytes of the message are asked for. -/
theorem chksum_asks (length : UInt16) : (chksum length).Asks (· < length.toNat) := by
  have hstop : length.toNat - length.toNat % 4 = 0 + 4 * (length.toNat / 4) := by omega
  obtain ⟨hasks, hends⟩ := chksumLoop_asks (length.toNat / 4) 0 0
  unfold chksum
  dsimp only
  rw [hstop, Interaction.asks_bind]
  refine ⟨hasks.mono fun i hi => by omega, hends.mono fun result hresult => ?_⟩
  obtain ⟨sum, i⟩ := result
  dsimp only at hresult ⊢
  split
  · rw [Interaction.asks_bind]
    refine ⟨byteIf_asks fun h => by omega, Interaction.always_of_forall (fun b0 => ?_) _⟩
    rw [Interaction.asks_bind]
    refine ⟨byteIf_asks fun h => by omega, Interaction.always_of_forall (fun b1 => ?_) _⟩
    rw [Interaction.asks_bind]
    exact ⟨byteIf_asks fun h => by omega, Interaction.always_of_forall (fun b2 => trivial) _⟩
  · trivial

/-- On the bytes behind a pointer a byte that is left over is read or zero. -/
theorem byteIf_resolve (data : Region) (check : Prop) [Decidable check] (i : ℕ) :
    (byteIf check i).resolve data = if check then (data i).toUInt32 else 0 := by
  unfold byteIf
  split
  · rfl
  · rfl

/-- On the bytes behind a pointer this is `chksum`. -/
theorem chksum_resolve (data : Region) (length : UInt16) :
    (chksum length).resolve data = Messaging.chksum data length := by
  have hstop : length.toNat - length.toNat % 4 =
      0 + 4 * ((length.toNat - length.toNat % 4) / 4) := by omega
  unfold chksum Messaging.chksum
  dsimp only
  rw [hstop, Interaction.resolve_bind, chksumLoop_resolve, ← hstop]
  by_cases hextra : length.toNat % 4 > 0
  · rw [if_pos hextra, if_pos hextra, Interaction.resolve_bind, Interaction.resolve_bind,
      Interaction.resolve_bind, byteIf_resolve, byteIf_resolve, byteIf_resolve]
    rfl
  · rw [if_neg hextra, if_neg hextra]
    rfl

end Reads

/-- A byte that is shifted within a word is multiplied. -/
theorem toNat_byte_shiftLeft (byte : UInt8) {amount : UInt32} (h : amount.toNat ≤ 24) :
    (byte.toUInt32 <<< amount).toNat = byte.toNat * 2 ^ amount.toNat := by
  have hamount : amount.toNat % 32 = amount.toNat := Nat.mod_eq_of_lt (by omega)
  have hpow : 2 ^ amount.toNat ≤ 2 ^ 24 := Nat.pow_le_pow_right (by decide) h
  have hsmall : byte.toNat * 2 ^ amount.toNat < 2 ^ 8 * 2 ^ 24 :=
    Nat.mul_lt_mul_of_lt_of_le byte.toNat_lt hpow (by decide)
  rw [UInt32.toNat_shiftLeft, UInt8.toNat_toUInt32, hamount, Nat.shiftLeft_eq]
  exact Nat.mod_eq_of_lt hsmall

/-- A word is the number of its bytes. -/
theorem chksumWord_eq_leNat (data : Region) (i : ℕ) :
    chksumWord data i =
      UInt32.ofNat (leNat [data i, data (i + 1), data (i + 2), data (i + 3)]) := by
  have hor {low high shift : ℕ} (h : low < 2 ^ shift) : low ||| high * 2 ^ shift =
      low + high * 2 ^ shift := by
    rw [Nat.or_comm, ← Nat.shiftLeft_eq, ← Nat.shiftLeft_add_eq_or_of_lt h, Nat.add_comm]
  have h0 := (data i).toNat_lt
  have h1 := (data (i + 1)).toNat_lt
  have h2 := (data (i + 2)).toNat_lt
  have h3 := (data (i + 3)).toNat_lt
  have h01 : (data i).toNat + (data (i + 1)).toNat * 2 ^ 8 < 2 ^ 16 := by omega
  have h012 : (data i).toNat + (data (i + 1)).toNat * 2 ^ 8 + (data (i + 2)).toNat * 2 ^ 16 <
      2 ^ 24 := by omega
  apply UInt32.toNat_inj.mp
  rw [chksumWord, UInt32.toNat_or, UInt32.toNat_or, UInt32.toNat_or,
    toNat_byte_shiftLeft _ (by decide), toNat_byte_shiftLeft _ (by decide),
    toNat_byte_shiftLeft _ (by decide), UInt8.toNat_toUInt32,
    UInt32.toNat_ofNat']
  simp only [UInt32.reduceToNat, leNat]
  rw [hor h0, hor h01, hor h012]
  omega

/-- The words of whole words of bytes are those that the loop takes. -/
theorem xorAll_leWords {bytes : List UInt8} {count : ℕ} (h : bytes.length = 4 * count) :
    xorAll (leWords bytes) = xorUpTo count fun k => chksumWord (Region.ofBytes bytes) (4 * k) := by
  induction count generalizing bytes with
  | zero =>
    rw [List.length_eq_zero_iff.mp h]
    rfl
  | succ count ih =>
    match bytes with
    | [] | [_] | [_, _] | [_, _, _] =>
      simp only [List.length_cons, List.length_nil] at h
      omega
    | b0 :: b1 :: b2 :: b3 :: rest =>
      have hrest : rest.length = 4 * count := by
        simp only [List.length_cons] at h
        omega
      have hnext (k : ℕ) :
          chksumWord (Region.ofBytes (b0 :: b1 :: b2 :: b3 :: rest)) (4 * (k + 1)) =
            chksumWord (Region.ofBytes rest) (4 * k) := rfl
      rw [xorUpTo, chksumWord_eq_leNat]
      simp only [hnext, ← ih hrest]
      rfl

/-- A buffer with zeros behind the message is the message filled up with zeros. -/
theorem padded_ofBytes {buffer : List UInt8} {length : ℕ} (h : length ≤ buffer.length) :
    padded (Region.ofBytes buffer) length = Region.ofBytes (zeroPadded (buffer.take length)) := by
  have htake : (buffer.take length).length = length := List.length_take_of_le h
  funext i
  unfold padded Region.ofBytes zeroPadded
  split
  · next hi =>
    rw [List.getD_append _ _ _ _ (by omega), List.getD_eq_getElem?_getD, List.getD_eq_getElem?_getD,
      List.getElem?_take_of_lt hi]
  · rw [List.getD_append_right _ _ _ _ (by omega)]
    simp

/-- The checksum of the front of a buffer is the exclusive-or of its words. -/
theorem chksum_eq_wordXor {buffer : List UInt8} {length : UInt16}
    (h : length.toNat ≤ buffer.length) :
    chksum (Region.ofBytes buffer) length = wordXor (buffer.take length.toNat) := by
  have hcount : (zeroPadded (buffer.take length.toNat)).length = 4 * ((length.toNat + 3) / 4) := by
    rw [zeroPadded, List.length_append, List.length_replicate, List.length_take_of_le h]
    omega
  rw [chksum_eq, padded_ofBytes h, wordXor, xorAll_leWords hcount]

/-- The checksum that `chksum` computes where a buffer can be read and nothing behind it. -/
def chksumIn (buffer : List UInt8) (length : UInt16) : Option UInt32 :=
  (Reads.chksum length).attempt fun i => buffer[i]?

/-- The checksum of all bytes of a buffer. -/
def chksumAll (buffer : List UInt8) : Option UInt32 := chksumIn buffer (UInt16.ofNat buffer.length)

/-- Within a buffer the checksum is the exclusive-or of the words. -/
theorem chksumIn_eq {buffer : List UInt8} {length : UInt16} (h : length.toNat ≤ buffer.length) :
    chksumIn buffer length = some (wordXor (buffer.take length.toNat)) := by
  have hread (i : ℕ) (hi : i < length.toNat) : buffer[i]? = some (Region.ofBytes buffer i) := by
    rw [Region.ofBytes, List.getD_eq_getElem _ _ (by omega)]
    exact List.getElem?_eq_getElem _
  rw [chksumIn, (Reads.chksum_asks length).attempt_eq hread, Reads.chksum_resolve,
    chksum_eq_wordXor h]

/-- The checksum of a whole buffer is the exclusive-or of its words. -/
theorem chksumAll_eq {buffer : List UInt8} (h : buffer.length ≤ 65535) :
    chksumAll buffer = some (wordXor buffer) := by
  have hlength : (UInt16.ofNat buffer.length).toNat = buffer.length := by
    rw [UInt16.toNat_ofNat', Nat.mod_eq_of_lt (by omega)]
  rw [chksumAll, chksumIn_eq hlength.le, hlength, List.take_length]

/-- For every buffer and every length within it, `chksum` reads only bytes of the message and
returns the exclusive-or of its little-endian words, the last one filled up with zeros. A message
behind whole words is summed on its own, and zeros behind a message do not change its sum. -/
theorem chksum_reference (buffer : List UInt8) (length : UInt16)
    (hlength : length.toNat ≤ buffer.length) :
    (Reads.chksum length).Asks (· < length.toNat) ∧
      chksumIn buffer length = some (wordXor (buffer.take length.toNat)) ∧
      (∀ left right : List UInt8, (left ++ right).length ≤ 65535 → 4 ∣ left.length →
        chksumAll (left ++ right) = Option.map₂ (· ^^^ ·) (chksumAll left) (chksumAll right)) ∧
      ∀ (bytes : List UInt8) (count : ℕ), bytes.length + count ≤ 65535 →
        chksumAll (bytes ++ List.replicate count 0) = chksumAll bytes := by
  refine ⟨Reads.chksum_asks length, chksumIn_eq hlength, fun left right hshort hwords => ?_,
    fun bytes count hshort => ?_⟩
  · rw [List.length_append] at hshort
    rw [chksumAll_eq (by rw [List.length_append]; omega), chksumAll_eq (by omega),
      chksumAll_eq (by omega), wordXor_append hwords]
    rfl
  · rw [chksumAll_eq (by rw [List.length_append, List.length_replicate]; omega),
      chksumAll_eq (by omega), wordXor_append_replicate]

/-- Five of six bytes are one whole word and one byte. -/
theorem chksum_reference_five :
    chksumIn [1, 2, 3, 4, 5, 6] 5 = some 0x04030204 ∧
      chksumAll ([1, 2, 3, 4] ++ [5]) =
        Option.map₂ (· ^^^ ·) (chksumAll [1, 2, 3, 4]) (chksumAll [5]) ∧
      chksumAll ([5] ++ List.replicate 2 0) = chksumAll [5] := by
  obtain ⟨-, hsum, happend, hzeros⟩ := chksum_reference [1, 2, 3, 4, 5, 6] 5 (by decide)
  exact ⟨hsum, happend [1, 2, 3, 4] [5] (by decide) (by decide), hzeros [5] 2 (by decide)⟩

end VirtualFirmware.Messaging
