import VirtualFirmware.Library.Bytes

/-!
# Records saved field by field

A record is saved as the bytes of its fields, in order, and loaded into another record of
the same type by reading them back one by one. A field carries the proof that reading what
it wrote copies it and consumes nothing more. A part of the record then ends up with the
source's value if some field copies it, and with the target's if every field leaves it.
-/

namespace VirtualFirmware.Library

/-- Values of a fixed width in a byte stream. -/
structure Codec (V : Type) where
  width : ℕ
  encode : V → List UInt8
  decode : List UInt8 → V
  encode_length : ∀ value, (encode value).length = width
  decode_encode : ∀ value, decode (encode value) = value

namespace Codec

/-- A byte. -/
def byte : Codec UInt8 where
  width := 1
  encode value := beBytes 1 value.toNat
  decode bytes := UInt8.ofNat (beNat bytes)
  encode_length value := beBytes_length 1 _
  decode_encode value := by rw [beNat_beBytes_of_lt value.toNat_lt, UInt8.ofNat_toNat]

/-- A 16-bit word, most significant byte first. -/
def be16 : Codec UInt16 where
  width := 2
  encode value := beBytes 2 value.toNat
  decode bytes := UInt16.ofNat (beNat bytes)
  encode_length value := beBytes_length 2 _
  decode_encode value := by rw [beNat_beBytes_of_lt value.toNat_lt, UInt16.ofNat_toNat]

/-- A 32-bit word, most significant byte first. -/
def be32 : Codec UInt32 where
  width := 4
  encode value := beBytes 4 value.toNat
  decode bytes := UInt32.ofNat (beNat bytes)
  encode_length value := beBytes_length 4 _
  decode_encode value := by rw [beNat_beBytes_of_lt value.toNat_lt, UInt32.ofNat_toNat]

variable {V : Type} (codec : Codec V)

/-- Read one value off the front of a stream. -/
def read (bytes : List UInt8) : Option (V × List UInt8) :=
  if bytes.length < codec.width then none
  else some (codec.decode (bytes.take codec.width), bytes.drop codec.width)

/-- What was written is read back, and the rest is left. -/
theorem read_encode (value : V) (rest : List UInt8) :
    codec.read (codec.encode value ++ rest) = some (value, rest) := by
  have hlen := codec.encode_length value
  rw [read, if_neg (by rw [List.length_append]; omega), List.take_left' hlen, List.drop_left' hlen,
    codec.decode_encode]

end Codec

/-- One saved field of a record: how it is written, how it is read into a record, and which part
of the source this copies. -/
structure SavedField (S : Type) where
  put : S → List UInt8
  get : List UInt8 → S → Option (S × List UInt8)
  copy : S → S → S
  get_put : ∀ source target rest, get (put source ++ rest) target = some (copy source target, rest)

namespace SavedField

variable {S V X : Type}

/-- A field that holds one value. -/
def scalar (codec : Codec V) (view : S → V) (update : S → V → S) : SavedField S where
  put source := codec.encode (view source)
  get bytes target := (codec.read bytes).map fun result => (update target result.1, result.2)
  copy source target := update target (view source)
  get_put source target rest := by rw [codec.read_encode]; rfl

/-- Bytes that were of use once: zeros are written, and as many bytes are skipped. -/
def unused (count : ℕ) : SavedField S where
  put _ := List.replicate count 0
  get bytes target := if bytes.length < count then none else some (target, bytes.drop count)
  copy _ target := target
  get_put source target rest := by
    rw [if_neg (by simp), List.drop_left' List.length_replicate]

/-- The consecutive entries of an array, one field each. -/
def array (codec : Codec V) (first count : ℕ) (view : S → ℕ → V) (update : S → ℕ → V → S) :
    List (SavedField S) :=
  (List.range' first count).map fun i => scalar codec (view · i) (update · i)

/-- Write the fields in order. -/
def save (fields : List (SavedField S)) (source : S) : List UInt8 :=
  fields.flatMap fun field => field.put source

/-- Read the fields in order. -/
def load : List (SavedField S) → List UInt8 → S → Option (S × List UInt8)
  | [], bytes, target => some (target, bytes)
  | field :: fields, bytes, target =>
    (field.get bytes target).bind fun result => load fields result.2 result.1

/-- The target with the fields copied from the source. -/
def restored (fields : List (SavedField S)) (source target : S) : S :=
  fields.foldl (fun target field => field.copy source target) target

/-- Loading what was saved copies the fields. -/
theorem load_save (fields : List (SavedField S)) (source target : S) (rest : List UInt8) :
    load fields (save fields source ++ rest) target =
      some (restored fields source target, rest) := by
  induction fields generalizing target with
  | nil => rfl
  | cons field fields ih =>
    rw [save, List.flatMap_cons, List.append_assoc, load, field.get_put]
    exact ih _

/-- The field copies this part of the record. -/
def Copies (view : S → X) (field : SavedField S) : Prop :=
  ∀ source target, view (field.copy source target) = view source

/-- The field leaves this part of the record alone. -/
def Leaves (view : S → X) (field : SavedField S) : Prop :=
  ∀ source target, view (field.copy source target) = view target

variable (view : S → X) {fields : List (SavedField S)} {source target : S}

/-- A part that every field leaves alone is the target's. -/
theorem restored_of_leaves (h : ∀ field ∈ fields, field.Leaves view) :
    view (restored fields source target) = view target := by
  induction fields generalizing target with
  | nil => rfl
  | cons field fields ih =>
    rw [List.forall_mem_cons] at h
    exact (ih h.2).trans (h.1 source target)

/-- A part that is the source's already stays so if every field copies it or leaves it alone. -/
theorem restored_of_eq (hall : ∀ field ∈ fields, field.Copies view ∨ field.Leaves view)
    (heq : view target = view source) : view (restored fields source target) = view source := by
  induction fields generalizing target with
  | nil => exact heq
  | cons field fields ih =>
    rw [List.forall_mem_cons] at hall
    exact ih hall.2 (hall.1.elim (fun h => h _ _) fun h => (h _ _).trans heq)

/-- A part that some field copies, and no field spoils, is the source's. -/
theorem restored_of_copies (hsome : ∃ field ∈ fields, field.Copies view)
    (hall : ∀ field ∈ fields, field.Copies view ∨ field.Leaves view) :
    view (restored fields source target) = view source := by
  induction fields generalizing target with
  | nil => simp at hsome
  | cons field fields ih =>
    rw [List.forall_mem_cons] at hall
    rw [List.exists_mem_cons_iff] at hsome
    rcases hsome with hfirst | hrest
    · have hcopied := restored_of_eq view hall.2 (hfirst source target)
      exact hcopied
    · exact ih hrest hall.2

end SavedField

end VirtualFirmware.Library
