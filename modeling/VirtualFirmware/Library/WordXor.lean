import VirtualFirmware.Library.Bytes
import VirtualFirmware.Library.Parity

/-!
# The exclusive-or of little-endian words

Bytes are filled up with zeros to whole words of four bytes each, and the words are combined by
exclusive-or. Whole words in front contribute on their own, and zeros behind contribute nothing.
-/

namespace VirtualFirmware.Library

/-- The little-endian words of some bytes, as far as they are whole. -/
def leWords : List UInt8 → List UInt32
  | b0 :: b1 :: b2 :: b3 :: rest => UInt32.ofNat (leNat [b0, b1, b2, b3]) :: leWords rest
  | _ => []

/-- The bytes, filled up with zeros to a multiple of four. -/
def zeroPadded (bytes : List UInt8) : List UInt8 :=
  bytes ++ List.replicate ((4 - bytes.length % 4) % 4) 0

/-- The exclusive-or of the words. -/
def xorAll (words : List UInt32) : UInt32 := words.foldr (· ^^^ ·) 0

/-- The exclusive-or of the little-endian words of the bytes, the last one filled up with zeros. -/
def wordXor (bytes : List UInt8) : UInt32 := xorAll (leWords (zeroPadded bytes))

/-- Bytes are filled up to whole words. -/
theorem four_dvd_zeroPadded_length (bytes : List UInt8) : 4 ∣ (zeroPadded bytes).length := by
  rw [zeroPadded, List.length_append, List.length_replicate]
  omega

/-- What follows whole words is read on its own. -/
theorem leWords_append {left : List UInt8} (h : 4 ∣ left.length) (right : List UInt8) :
    leWords (left ++ right) = leWords left ++ leWords right := by
  induction left using leWords.induct with
  | case1 b0 b1 b2 b3 rest ih =>
    have hrest : 4 ∣ rest.length := by
      simp only [List.length_cons] at h
      omega
    simp only [List.cons_append, leWords, ih hrest]
  | case2 bytes hshort =>
    match bytes with
    | [] => rfl
    | [_] | [_, _] | [_, _, _] => simp at h
    | b0 :: b1 :: b2 :: b3 :: rest => exact absurd rfl (hshort b0 b1 b2 b3 rest)

/-- The exclusive-or is taken of the words in front and of those behind. -/
theorem xorAll_append (left right : List UInt32) :
    xorAll (left ++ right) = xorAll left ^^^ xorAll right := by
  induction left with
  | nil => exact UInt32.zero_xor.symm
  | cons word left ih =>
    change word ^^^ xorAll (left ++ right) = word ^^^ xorAll left ^^^ xorAll right
    rw [ih, UInt32.xor_assoc]

/-- Zeros contribute nothing. -/
theorem xorAll_leWords_replicate (count : ℕ) :
    xorAll (leWords (List.replicate (4 * count) 0)) = 0 := by
  induction count with
  | zero => rfl
  | succ count ih =>
    change 0 ^^^ xorAll (leWords (List.replicate (4 * count) 0)) = 0
    rw [ih, UInt32.xor_zero]

/-- Whole words need no filling up. -/
theorem zeroPadded_of_dvd {bytes : List UInt8} (h : 4 ∣ bytes.length) :
    zeroPadded bytes = bytes := by
  have hzero : (4 - bytes.length % 4) % 4 = 0 := by omega
  rw [zeroPadded, hzero, List.replicate_zero, List.append_nil]

/-- What follows whole words is filled up on its own. -/
theorem zeroPadded_append {left : List UInt8} (h : 4 ∣ left.length) (right : List UInt8) :
    zeroPadded (left ++ right) = left ++ zeroPadded right := by
  have hcount : (4 - (left.length + right.length) % 4) % 4 = (4 - right.length % 4) % 4 := by omega
  rw [zeroPadded, zeroPadded, List.length_append, hcount, List.append_assoc]

/-- Zeros behind the bytes are whole words of zeros behind the bytes filled up. -/
theorem zeroPadded_append_replicate (bytes : List UInt8) (count : ℕ) :
    ∃ more, zeroPadded (bytes ++ List.replicate count 0) =
      zeroPadded bytes ++ List.replicate (4 * more) 0 := by
  have hcount : ∃ more, count + (4 - (bytes.length + count) % 4) % 4 =
      (4 - bytes.length % 4) % 4 + 4 * more :=
    ⟨(count + (4 - (bytes.length + count) % 4) % 4 - (4 - bytes.length % 4) % 4) / 4, by omega⟩
  obtain ⟨more, hmore⟩ := hcount
  refine ⟨more, ?_⟩
  rw [zeroPadded, zeroPadded, List.length_append, List.length_replicate, List.append_assoc,
    List.append_assoc, List.replicate_append_replicate, List.replicate_append_replicate, hmore]

/-- Whole words in front contribute on their own. -/
theorem wordXor_append {left : List UInt8} (h : 4 ∣ left.length) (right : List UInt8) :
    wordXor (left ++ right) = wordXor left ^^^ wordXor right := by
  rw [wordXor, wordXor, wordXor, zeroPadded_append h, zeroPadded_of_dvd h, leWords_append h,
    xorAll_append]

/-- Zeros behind contribute nothing. -/
theorem wordXor_append_replicate (bytes : List UInt8) (count : ℕ) :
    wordXor (bytes ++ List.replicate count 0) = wordXor bytes := by
  obtain ⟨more, hmore⟩ := zeroPadded_append_replicate bytes count
  rw [wordXor, hmore, leWords_append (four_dvd_zeroPadded_length bytes), xorAll_append,
    xorAll_leWords_replicate, UInt32.xor_zero]
  rfl

end VirtualFirmware.Library
