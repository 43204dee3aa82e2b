import VirtualFirmware.Opt.Containment

/-!
# The options a call reads

As long as the values fit, each option is after a call what the last line that names it gives it.
-/

namespace VirtualFirmware.Opt

open Library

/-- The value an option starts with. -/
def Key.default : Key → Text
  | mcastip => ascii ['2', '3', '4', '.', '1', '.', '1', '.', '1', '0']
  | mcastport => ascii ['9', '7', '5', '1']
  | magicnum => leBytes 4 0xe1000
  | tcpport => ascii ['9', '7', '5', '2']
  | timeout => leBytes 4 0
  | dbglvl => leBytes 4 3

/-- What an option is after some lines: what the last of them that names it gives it, or its
default. -/
def valueAfter (lines : List Text) (key : Key) : Text :=
  lines.foldl (fun value line => (assigned line key).getD value) key.default

/-- The default of a string leaves room for its `NUL`. -/
theorem default_length_lt {key : Key} (h : key.isText) : key.default.length < key.size := by
  cases key <;> first | decide | exact absurd h (by decide)

/-- When the loop starts every option has its default. -/
theorem valueAt_openedOpt (memory : Region) (key : Key) :
    valueAt (openedOpt memory) key = key.default := by
  rw [valueAt, loadAt_openedOpt]
  cases key <;> decide

/-- Lines whose values fit give every option what the last of them gives it. -/
theorem valueAt_processLines {lines : List Text} (hlines : ∀ line ∈ lines, (0 : UInt8) ∉ line)
    (hfits : ∀ line ∈ lines, fits line) (opt : Region) (key : Key) :
    valueAt (processLines lines opt) key =
      lines.foldl (fun value line => (assigned line key).getD value) (valueAt opt key) := by
  induction lines generalizing opt with
  | nil => rfl
  | cons line rest ih =>
    rw [List.forall_mem_cons] at hlines hfits
    rw [processLines, List.foldl_cons, List.foldl_cons, ← valueAt_processLine hlines.1 hfits.1]
    exact ih hlines.2 hfits.2 _

/-- A line whose value fits leaves the mark that the options were read. -/
theorem set_processLine {line : Text} (hfits : fits line) (opt : Region) :
    (processLine line opt).2.loadAt setOffset 4 = opt.loadAt setOffset 4 := by
  rw [processLine_snd]
  cases hsetting : setting line with
  | none => rfl
  | some given =>
    have hlength := encode_length_le hfits hsetting
    have hbefore : given.1.offset + given.1.size ≤ setOffset := by cases given.1 <;> decide
    exact Region.loadAt_storeAt_of_disjoint opt (.inr (by omega))

/-- Lines whose values fit leave the mark that the options were read. -/
theorem set_processLines {lines : List Text} (hfits : ∀ line ∈ lines, fits line) (opt : Region) :
    (processLines lines opt).loadAt setOffset 4 = opt.loadAt setOffset 4 := by
  induction lines generalizing opt with
  | nil => rfl
  | cons line rest ih =>
    rw [List.forall_mem_cons] at hfits
    rw [processLines, List.foldl_cons, ← set_processLine hfits.1 opt]
    exact ih hfits.2 _

/-- A call whose words and values fit gives every option what the last line gives it. -/
theorem readOptions_values {input line : Text} (h : AllFit input line) (memory : Region) :
    ∃ reading, readOptions (some input) line (defaultOpt memory) = some reading ∧
      (∀ key, valueAt reading.opt key = valueAfter (linesTaken input line) key) ∧
      reading.opt.loadAt setOffset 4 = (openedOpt memory).loadAt setOffset 4 := by
  refine ⟨_, (readOptions_default input line memory).trans (if_pos h.words), fun key => ?_,
    set_processLines h.values _⟩
  rw [valueAfter, ← valueAt_openedOpt memory]
  exact valueAt_processLines (fun _ => zero_notMem_of_taken) h.values _ key

/-- A value that leaves an option at its default fits. -/
theorem fits_of_default {line : Text}
    (h : ∀ key value, setting line = some (key, value) → key.given value = key.default) :
    fits line := by
  unfold fits
  cases hsetting : setting line with
  | none => rfl
  | some given =>
    obtain ⟨key, value⟩ := given
    cases htext : key.isText with
    | false => simp [htext]
    | true =>
      have hlength := congrArg List.length (h key value hsetting)
      have hdefault := default_length_lt htext
      simp only [Key.given, htext, if_true, List.length_take] at hlength
      simp [htext]
      omega

end VirtualFirmware.Opt
