import VirtualFirmware.Opt.ReadOptions

/-!
# What a line of an options file changes

A call passes through its loop once for each word of the file, or once with what the buffer held
before it if the file has no words. A line that names an option stores its value in that field and,
if the value is a string that does not fit, behind it.
-/

namespace VirtualFirmware.Opt

open Library

namespace Key

/-- All keys, in the order in which the code compares them. -/
def all : List Key := [mcastip, mcastport, tcpport, magicnum, timeout, dbglvl]

/-- The bytes that are stored for a value. -/
def encode (key : Key) (value : Text) : List UInt8 :=
  if key.isText then value ++ [0] else leBytes 4 (atoi value).toNat

/-- The bytes of the field. -/
def Covers (key : Key) (target : ℕ) : Prop := key.offset ≤ target ∧ target < key.offset + key.size

/-- Different fields do not overlap. -/
theorem disjoint {key other : Key} (h : key ≠ other) :
    key.offset + key.size ≤ other.offset ∨ other.offset + other.size ≤ key.offset := by
  cases key <;> cases other <;> first | exact absurd rfl h | decide

/-- A number fills its field. -/
theorem size_of_number {key : Key} (h : key.isText = false) : key.size = 4 := by
  cases key <;> first | rfl | exact absurd h (by decide)

end Key

/-- The option a line names, and the value it gives. -/
def setting (line : Text) : Option (Key × Text) :=
  match (strtok line).dropWhile (· ≠ equals) with
  | [] => none
  | _ :: value =>
    (Key.all.find? fun key => (strtok line).takeWhile (· ≠ equals) = key.name).map fun key =>
    (key, value)

/-- The value a line gives leaves room for the `NUL` that ends it. -/
def fits (line : Text) : Bool :=
  (setting line).all fun given => !given.1.isText || given.2.length < given.1.size

/-- A line that names an option stores the value it gives at that field; others change nothing. -/
theorem processLine_snd (line : Text) (opt : Region) :
    (processLine line opt).2 = match setting line with
      | none => opt
      | some (key, value) => opt.storeAt key.offset (key.encode value) := by
  unfold processLine setting
  dsimp only
  generalize (strtok line).takeWhile (· ≠ equals) = name
  cases (strtok line).dropWhile (· ≠ equals) with
  | nil => rfl
  | cons _ value =>
    simp only [Key.all, List.find?_cons, List.find?_nil]
    split_ifs with h1 h2 h3 h4 h5 h6
    · simp only [decide_eq_true h1]
      rfl
    · simp only [decide_eq_false h1, decide_eq_true h2]
      rfl
    · simp only [decide_eq_false h1, decide_eq_false h2, decide_eq_true h3]
      rfl
    · simp only [decide_eq_false h1, decide_eq_false h2, decide_eq_false h3, decide_eq_true h4]
      rfl
    · simp only [decide_eq_false h1, decide_eq_false h2, decide_eq_false h3, decide_eq_false h4,
        decide_eq_true h5]
      rfl
    · simp only [decide_eq_false h1, decide_eq_false h2, decide_eq_false h3, decide_eq_false h4,
        decide_eq_false h5, decide_eq_true h6]
      rfl
    · simp only [decide_eq_false h1, decide_eq_false h2, decide_eq_false h3, decide_eq_false h4,
        decide_eq_false h5, decide_eq_false h6]
      rfl

/-- What an option is: the string its field holds, or the bytes of its number. -/
def valueAt (opt : Region) (key : Key) : Text :=
  if key.isText then cString (opt.loadAt key.offset key.size) else opt.loadAt key.offset key.size

/-- What an option becomes that is given a value: of a string, as much as the field holds. -/
def Key.given (key : Key) (value : Text) : Text :=
  if key.isText then value.take key.size else leBytes 4 (atoi value).toNat

/-- A C string has no `NUL` in it. -/
theorem zero_notMem_cString (bytes : Text) : (0 : UInt8) ∉ cString bytes := by
  intro hzero
  simpa using List.mem_takeWhile_imp hzero

/-- Bytes without a `NUL` are a C string. -/
theorem cString_of_notMem {bytes : Text} (h : (0 : UInt8) ∉ bytes) : cString bytes = bytes := by
  refine List.takeWhile_eq_self_iff.mpr fun byte hbyte => ?_
  simp only [decide_eq_true_eq]
  rintro rfl
  exact h hbyte

/-- A value is part of its line. -/
theorem setting_value_subset {line value : Text} {key : Key}
    (h : setting line = some (key, value)) :
    value ⊆ line := by
  have htok : strtok line ⊆ line := by
    refine List.append_subset.mpr ⟨(List.takeWhile_sublist _).subset, ?_⟩
    exact ((List.takeWhile_sublist _).trans (List.dropWhile_sublist _)).subset
  unfold setting at h
  split at h
  · exact absurd h (by simp)
  · next first rest hrest =>
    obtain ⟨_, _, hgiven⟩ := Option.map_eq_some_iff.mp h
    obtain ⟨-, rfl⟩ := Prod.mk.inj hgiven
    have hsuffix : first :: rest ⊆ strtok line := hrest ▸ (List.dropWhile_sublist _).subset
    exact fun byte hbyte => htok (hsuffix (List.mem_cons_of_mem _ hbyte))

/-- Storing a value in a field gives the option that value, of a string as much as the field
holds. -/
theorem valueAt_storeAt {value : Text} (hvalue : (0 : UInt8) ∉ value) (opt : Region) (key : Key) :
    valueAt (opt.storeAt key.offset (key.encode value)) key = key.given value := by
  unfold valueAt Key.given Key.encode
  rw [Region.loadAt_storeAt]
  cases htext : key.isText with
  | false =>
    have hsize : (leBytes 4 (atoi value).toNat).length = key.size := by
      rw [leBytes_length, Key.size_of_number htext]
    simp only [Bool.false_eq_true, if_false]
    rw [← hsize, Region.load_store]
  | true =>
    simp only [if_true]
    by_cases hfits : value.length < key.size
    · rw [Region.load_store_of_le _ (by simpa [Nat.succ_le_iff] using hfits),
        List.take_of_length_le hfits.le, cString, List.append_assoc, List.takeWhile_append_of_pos,
        List.singleton_append,
        List.takeWhile_cons_of_neg (by simp), List.append_nil]
      exact List.takeWhile_eq_self_iff.mp (cString_of_notMem hvalue)
    · have hlong : key.size ≤ value.length := Nat.le_of_not_lt hfits
      rw [Region.load_store_of_ge _ (by simp; omega), List.take_append_of_le_length hlong]
      exact cString_of_notMem fun hzero => hvalue (List.mem_of_mem_take hzero)

/-- A value that fits is stored within its field. -/
theorem encode_length_le {line value : Text} {key : Key} (hfits : fits line)
    (h : setting line = some (key, value)) : (key.encode value).length ≤ key.size := by
  unfold fits at hfits
  rw [h] at hfits
  unfold Key.encode
  cases htext : key.isText with
  | false => simp [Key.size_of_number htext]
  | true => simpa [htext, Nat.succ_le_iff] using hfits

/-- The option a line gives a value to, if it is the one asked for. -/
def assigned (line : Text) (key : Key) : Option Text :=
  (setting line).bind fun given => if given.1 = key then some (key.given given.2) else none

/-- A line whose value fits changes the option it names, and no other. -/
theorem valueAt_processLine {line : Text} (hline : (0 : UInt8) ∉ line) (hfits : fits line)
    (opt : Region) (key : Key) :
    valueAt (processLine line opt).2 key = (assigned line key).getD (valueAt opt key) := by
  rw [processLine_snd, assigned]
  cases hsetting : setting line with
  | none => rfl
  | some given =>
    obtain ⟨named, value⟩ := given
    have hvalue : (0 : UInt8) ∉ value := fun hzero => hline (setting_value_subset hsetting hzero)
    by_cases hkey : named = key
    · subst hkey
      simpa using valueAt_storeAt hvalue opt named
    · have hlength := encode_length_le hfits hsetting
      have hdisjoint := Key.disjoint hkey
      have hloads : (opt.storeAt named.offset (named.encode value)).loadAt key.offset key.size =
          opt.loadAt key.offset key.size :=
        Region.loadAt_storeAt_of_disjoint opt (by omega)
      simp only [Option.bind_some, if_neg hkey, Option.getD_none, valueAt, hloads]

end VirtualFirmware.Opt
