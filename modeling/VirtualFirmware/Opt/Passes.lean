import VirtualFirmware.Opt.Lines

/-!
# The passes of a call

The loop takes the words of the file in order, and the string in its buffer once if there are none,
so a call is a fold over the lines it takes.
-/

namespace VirtualFirmware.Opt

open Library

/-- The strings the loop finds in its buffer: the words of the file, or what the buffer held. -/
def linesTaken (input line : Text) : List Text :=
  match words isSpace input with
  | [] => [cString line]
  | first :: rest => (first :: rest).map cString

/-- `OPT` after some lines. -/
def processLines (lines : List Text) (opt : Region) : Region :=
  lines.foldl (fun opt line => (processLine line opt).2) opt

/-- The passes through the loop for some lines. -/
def passesOf : List Text → Region → List Pass
  | [], _ => []
  | line :: rest, opt =>
    ⟨line, opt, (processLine line opt).2⟩ :: passesOf rest (processLine line opt).2

/-- The words of a file are the one that is scanned and those of the input behind it. -/
theorem words_scan (input : Text) :
    words isSpace input = putWord (scanned input) (words isSpace (afterScan input)) :=
  words_eq input

/-- Where no word is scanned the input is at its end. -/
theorem afterScan_of_scanned_nil {input : Text} (h : scanned input = []) :
    afterScan input = [] := by
  have hrest : input.dropWhile isSpace = [] := (takeWhile_dropWhile_eq_nil_iff input).mp h
  rw [afterScan, hrest]
  rfl

/-- Behind a word there is another word or nothing. -/
theorem words_afterScan_eq_nil_iff (input : Text) :
    words isSpace (afterScan input) = [] ↔ afterScan input = [] := by
  rw [afterScan, words_dropWhile, words_eq_nil_iff]

/-- Scanning a word shortens the input. -/
theorem afterScan_length_lt {input : Text} (h : scanned input ≠ []) :
    (afterScan input).length < input.length := by
  have hskip := (List.dropWhile_sublist isSpace (l := input)).length_le
  have hrest := (List.dropWhile_sublist isSpace
    (l := (input.dropWhile isSpace).dropWhile fun c => !isSpace c)).length_le
  have hword := congrArg List.length
    (List.takeWhile_append_dropWhile (p := fun c => !isSpace c) (l := input.dropWhile isSpace))
  have hpos := List.length_pos_of_ne_nil h
  rw [List.length_append] at hword
  unfold scanned at hpos
  unfold afterScan
  omega

/-- At the end of the input the last line taken is the word scanned there, or what the buffer
holds. -/
theorem linesTaken_of_end {input : Text} (h : afterScan input = []) (line : Text) :
    linesTaken input line =
      [if scanned input = [] then cString line else cString (scanned input)] := by
  rw [linesTaken, words_scan, h]
  cases scanned input <;> rfl

/-- Before the end of the input the first line taken is the word scanned there, whatever the buffer
holds. -/
theorem linesTaken_of_more {input : Text} (h : afterScan input ≠ []) (line line' : Text) :
    linesTaken input line = cString (scanned input) :: linesTaken (afterScan input) line' := by
  have hword : scanned input ≠ [] := fun hnil => h (afterScan_of_scanned_nil hnil)
  have hmore := mt (words_afterScan_eq_nil_iff input).mp h
  rw [linesTaken, words_scan, linesTaken]
  cases hscan : scanned input with
  | nil => exact absurd hscan hword
  | cons c word =>
    cases hwords : words isSpace (afterScan input) with
    | nil => exact absurd hwords hmore
    | cons first rest => rfl

/-- The loop passes once for each line it takes, if no word is too long for its buffer. -/
theorem readLoop_eq {fuel : ℕ} {input : Text} (hfuel : input.length < fuel) (line : Text)
    (opt : Region) :
    readLoop fuel input line opt =
      if ∀ word ∈ words isSpace input, word.length < optBufLen then
        some ⟨passesOf (linesTaken input line) opt, processLines (linesTaken input line) opt⟩
      else none := by
  induction fuel generalizing input line opt with
  | zero => exact absurd hfuel (Nat.not_lt_zero _)
  | succ fuel ih =>
    rw [readLoop, words_scan input]
    simp only [forall_mem_putWord]
    by_cases hlong : optBufLen ≤ (scanned input).length
    · have hword : scanned input ≠ [] := by
        intro hnil
        rw [hnil] at hlong
        exact absurd hlong (by decide)
      rw [if_pos hlong, if_neg fun hshort => Nat.not_lt.mpr hlong (hshort.1 hword)]
    · have hfirst : scanned input ≠ [] → (scanned input).length < optBufLen :=
        fun _ => Nat.lt_of_not_le hlong
      simp only [if_neg hlong, and_iff_right hfirst]
      by_cases hend : afterScan input = []
      · rw [if_pos hend, linesTaken_of_end hend, hend]
        rfl
      · have hword : scanned input ≠ [] := fun hnil => hend (afterScan_of_scanned_nil hnil)
        have hlength := afterScan_length_lt hword
        rw [if_neg hend, if_neg hword, ih (by omega), linesTaken_of_more hend line
          (processLine (cString (scanned input)) opt).1]
        split_ifs
        · rfl
        · rfl

/-- No line taken has a `NUL` in it. -/
theorem zero_notMem_of_taken {input line taken : Text} (h : taken ∈ linesTaken input line) :
    (0 : UInt8) ∉ taken := by
  unfold linesTaken at h
  split at h
  · rw [List.mem_singleton.mp h]
    exact zero_notMem_cString _
  · obtain ⟨word, -, rfl⟩ := List.mem_map.mp h
    exact zero_notMem_cString _

/-- `OPT` when the loop starts: the initial values, marked as read. -/
def openedOpt (memory : Region) : Region := (defaultOpt memory).storeAt setOffset (leBytes 4 1)

/-- The first call reads the file from the initial values. -/
theorem readOptions_default (input line : Text) (memory : Region) :
    readOptions (some input) line (defaultOpt memory) =
      if ∀ word ∈ words isSpace input, word.length < optBufLen then
        some ⟨passesOf (linesTaken input line) (openedOpt memory),
          processLines (linesTaken input line) (openedOpt memory)⟩
      else none := by
  have hset : leNat ((defaultOpt memory).loadAt setOffset 4) = 0 := by
    rw [defaultOpt, Region.loadAt_store _ (by decide)]
    decide
  rw [readOptions, if_neg (by rw [hset]; exact not_not.mpr rfl)]
  exact readLoop_eq (Nat.lt_succ_self _) line _

/-- When the loop starts, a field holds its part of the initial options. -/
theorem loadAt_openedOpt (memory : Region) (key : Key) :
    (openedOpt memory).loadAt key.offset key.size = (initialOpt.drop key.offset).take key.size := by
  rw [openedOpt, Region.loadAt_storeAt_of_disjoint _ (by cases key <;> decide), defaultOpt,
    Region.loadAt_store _ (by cases key <;> decide)]

end VirtualFirmware.Opt
