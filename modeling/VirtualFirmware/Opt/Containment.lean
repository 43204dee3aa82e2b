import VirtualFirmware.Opt.Passes

/-!
# Lines that stay within their fields

A line changes no byte outside the field it names exactly if its value fits, and the string fields
stay terminated exactly as long as every value does.
-/

namespace VirtualFirmware.Opt

open Library

/-- A field holds a `NUL`. -/
def Terminated (opt : Region) (key : Key) : Prop := (0 : UInt8) ∈ opt.loadAt key.offset key.size

/-- A line changes no byte outside the field it names, and leaves every string field terminated. -/
structure Pass.Contained (pass : Pass) : Prop where
  frame : ∀ target, (∀ key value, setting pass.line = some (key, value) → ¬key.Covers target) →
    pass.after target = pass.before target
  terminated : ∀ key : Key, key.isText → Terminated pass.after key

/-- A string field is terminated if the string in it is shorter than the field. -/
theorem terminated_iff {opt : Region} {key : Key} (h : key.isText) :
    Terminated opt key ↔ (valueAt opt key).length < key.size := by
  rw [Terminated, valueAt, if_pos h]
  generalize hbytes : opt.loadAt key.offset key.size = bytes
  have hlength : bytes.length = key.size := by rw [← hbytes, Region.loadAt_length]
  rw [← hlength]
  constructor
  · intro hzero
    refine lt_of_le_of_ne (List.takeWhile_sublist _).length_le fun heq => ?_
    have hwhole : cString bytes = bytes := (List.takeWhile_prefix _).eq_of_length heq
    exact zero_notMem_cString bytes (by rwa [hwhole])
  · intro hshort
    by_contra hzero
    rw [cString_of_notMem hzero] at hshort
    exact Nat.lt_irrefl _ hshort

/-- A line whose value fits leaves every string field terminated. -/
theorem terminated_processLine {line : Text} (hline : (0 : UInt8) ∉ line) (hfits : fits line)
    {opt : Region} {key : Key} (htext : key.isText) (h : Terminated opt key) :
    Terminated (processLine line opt).2 key := by
  rw [terminated_iff htext] at h ⊢
  rw [valueAt_processLine hline hfits, assigned]
  unfold fits at hfits
  cases hsetting : setting line with
  | none => exact h
  | some given =>
    by_cases hkey : given.1 = key
    · subst hkey
      simpa [hsetting, htext, Key.given] using hfits
    · simpa [hkey] using h

/-- A line is contained exactly if its value fits. -/
theorem contained_iff {line : Text} (hline : (0 : UInt8) ∉ line) {opt : Region}
    (hopt : ∀ key : Key, key.isText → Terminated opt key) :
    Pass.Contained ⟨line, opt, (processLine line opt).2⟩ ↔ fits line := by
  constructor
  · intro hcontained
    unfold fits
    cases hsetting : setting line with
    | none => rfl
    | some given =>
      obtain ⟨key, value⟩ := given
      cases htext : key.isText with
      | false => simp [htext]
      | true =>
        have hvalue : (0 : UInt8) ∉ value :=
          fun hzero => hline (setting_value_subset hsetting hzero)
        have hafter := (terminated_iff htext).mp (hcontained.terminated key htext)
        simp only [processLine_snd, hsetting, valueAt_storeAt hvalue, Key.given, htext, if_true,
          List.length_take] at hafter
        simp [htext]
        omega
  · intro hfits
    refine ⟨fun target houtside => ?_,
      fun key htext => terminated_processLine hline hfits htext (hopt key htext)⟩
    show (processLine line opt).2 target = opt target
    rw [processLine_snd]
    cases hsetting : setting line with
    | none => rfl
    | some given =>
      have hlength := encode_length_le hfits hsetting
      have hcovers := houtside given.1 given.2 hsetting
      unfold Key.Covers at hcovers
      exact Region.storeAt_of_outside opt (by omega)

/-- All passes are contained exactly if every value fits. -/
theorem passesOf_contained_iff {lines : List Text} (hlines : ∀ line ∈ lines, (0 : UInt8) ∉ line)
    {opt : Region} (hopt : ∀ key : Key, key.isText → Terminated opt key) :
    (∀ pass ∈ passesOf lines opt, pass.Contained) ↔ ∀ line ∈ lines, fits line := by
  induction lines generalizing opt with
  | nil => simp [passesOf]
  | cons line rest ih =>
    have hline := hlines line List.mem_cons_self
    rw [passesOf, List.forall_mem_cons, List.forall_mem_cons, contained_iff hline hopt]
    refine and_congr_right fun hfits =>
      ih (fun other hother => hlines other (List.mem_cons_of_mem _ hother)) ?_
    exact fun key htext => terminated_processLine hline hfits htext (hopt key htext)

/-- The string fields are terminated when the loop starts. -/
theorem terminated_openedOpt (memory : Region) (key : Key) : Terminated (openedOpt memory) key := by
  rw [Terminated, loadAt_openedOpt]
  cases key <;> decide

/-- A call from the initial values completes, and each of its lines is contained. -/
def LinesContained (input line : Text) (memory : Region) : Prop :=
  ∃ reading, readOptions (some input) line (defaultOpt memory) = some reading ∧
    ∀ pass ∈ reading.passes, pass.Contained

/-- Every word fits the buffer, and every value that is taken the field it is for. -/
structure AllFit (input line : Text) : Prop where
  words : ∀ word ∈ words isSpace input, word.length < optBufLen
  values : ∀ taken ∈ linesTaken input line, fits taken

/-- Lines change only their own options exactly if every word fits the buffer and every value its
field. -/
theorem readOptions_contained_iff (input line : Text) (memory : Region) :
    LinesContained input line memory ↔ AllFit input line := by
  unfold LinesContained
  rw [readOptions_default]
  by_cases hshort : ∀ word ∈ words isSpace input, word.length < optBufLen
  · have hlines : ∀ taken ∈ linesTaken input line, (0 : UInt8) ∉ taken :=
      fun _ => zero_notMem_of_taken
    have hpasses := passesOf_contained_iff hlines fun key _ => terminated_openedOpt memory key
    simp only [if_pos hshort, Option.some.injEq, exists_eq_left', hpasses]
    exact ⟨fun hvalues => ⟨hshort, hvalues⟩, AllFit.values⟩
  · simp only [if_neg hshort, reduceCtorEq, false_and, exists_false, false_iff]
    exact fun hfit => hshort hfit.words

/-- A line after which a string field is not terminated was not contained. -/
theorem not_linesContained {input line : Text} {memory : Region} (key : Key) (htext : key.isText)
    (h : (readOptions (some input) line (defaultOpt memory)).all
      (fun reading => reading.passes.all fun pass => 0 ∈ pass.after.loadAt key.offset key.size) =
        false) :
    ¬LinesContained input line memory := by
  rintro ⟨reading, hreading, hcontained⟩
  rw [hreading] at h
  have hall : reading.passes.all (fun pass => 0 ∈ pass.after.loadAt key.offset key.size) = true :=
    List.all_eq_true.mpr fun pass hpass =>
      decide_eq_true ((hcontained pass hpass).terminated key htext)
  exact absurd (hall.symm.trans h) (by decide)

/-- A file with an address of sixteen characters. -/
def longAddress : Text :=
  Key.mcastip.name ++ equals :: ascii ['2', '3', '4', '.', '1', '0', '0', '.', '1', '0', '0', '.',
    '1', '0', '0', '0']

/-- The end of an address of sixteen characters clears the port that stands behind it. -/
theorem longAddress_clears_port :
    ((readOptions (some longAddress) [] (defaultOpt fun _ => 0)).map fun reading =>
        (valueAt (defaultOpt fun _ => 0) .mcastport, valueAt reading.opt .mcastport)) =
        some (ascii ['9', '7', '5', '1'], []) ∧
      ¬LinesContained longAddress [] fun _ => 0 :=
  ⟨by decide +kernel, not_linesContained .mcastip rfl (by decide +kernel)⟩

end VirtualFirmware.Opt
