import VirtualFirmware.Opt.Values

/-!
# Comments in an options file

A comment runs from a `#` to the end of its line. The reader works on words, so it ignores the word
a comment starts in and reads the other words of the comment like any words. A file without words
is read as what the buffer holds.
-/

namespace VirtualFirmware.Opt

open Library

/-- A file without its comments. -/
def stripComments (input : Text) : Text := uncomment (· = hash) (· = newline) false input

/-- A string that does not start with a `#` is cut at its first. -/
theorem strtok_of_head {line : Text} (h : ∀ c ∈ line.head?, c ≠ hash) :
    strtok line = line.takeWhile (· ≠ hash) := by
  cases line with
  | nil => rfl
  | cons c rest =>
    have hc : c ≠ hash := h c rfl
    simp [strtok, hc]

/-- The front of a word up to its first `#`. -/
def front (word : Text) : Text := word.takeWhile fun c => !decide (c = hash)

/-- What is left of a word before a comment is read as the word is. -/
theorem strtok_front {word : Text} (h : front word ≠ []) :
    strtok (cString (front word)) = strtok (cString word) := by
  cases word with
  | nil => exact absurd rfl h
  | cons c rest =>
    have hc : c ≠ hash := by
      rintro rfl
      exact h rfl
    have hhead : ∀ first ∈ (cString (c :: rest)).head?, first ≠ hash := by
      by_cases hzero : c = 0
      · simp [cString, hzero]
      · simpa [cString, hzero] using hc
    have hhead' : ∀ first ∈ (cString (front (c :: rest))).head?, first ≠ hash := by
      by_cases hzero : c = 0
      · subst hzero
        simp [cString, front, hc]
      · simp [cString, front, hzero, hc]
    rw [strtok_of_head hhead, strtok_of_head hhead', cString, cString, front,
      List.takeWhile_takeWhile, List.takeWhile_takeWhile, List.takeWhile_takeWhile]
    congr 1
    funext byte
    by_cases hbyte : byte = hash <;> simp [hbyte]

/-- What is left of a word before a comment sets what the word sets. -/
theorem setting_front {word : Text} (h : front word ≠ []) :
    setting (cString (front word)) = setting (cString word) := by
  rw [setting, setting, strtok_front h]

/-- Without its comments a file has fronts of its words. -/
theorem words_stripComments {input word : Text} (h : word ∈ words isSpace (stripComments input)) :
    ∃ whole ∈ words isSpace input, word = front whole := by
  refine fronts_uncomment (fun c hc => ?_) (fun c hc => ?_) input word h
  · rw [of_decide_eq_true hc]
    decide
  · rw [of_decide_eq_true hc]
    decide

/-- Without its comments a file fits if it does with them. -/
theorem stripComments_fits {input : Text}
    (hwords : ∀ word ∈ words isSpace input, word.length < optBufLen)
    (hvalues : ∀ word ∈ words isSpace input, fits (cString word)) {word : Text}
    (h : word ∈ words isSpace (stripComments input)) :
    word.length < optBufLen ∧ fits (cString word) := by
  obtain ⟨whole, hwhole, rfl⟩ := words_stripComments h
  constructor
  · exact (List.takeWhile_sublist _).length_le.trans_lt (hwords whole hwhole)
  · rw [fits, setting_front (ne_nil_of_mem_words h)]
    exact hvalues whole hwhole

/-- Lines taken fit if the words of the file do, and what the buffer holds if there are none. -/
theorem allFit_of {input line : Text}
    (hwords : ∀ word ∈ words isSpace input, word.length < optBufLen ∧ fits (cString word))
    (hline : words isSpace input = [] → fits (cString line)) : AllFit input line := by
  refine ⟨fun word hword => (hwords word hword).1, fun taken htaken => ?_⟩
  unfold linesTaken at htaken
  split at htaken
  · next hnone =>
    rw [List.mem_singleton.mp htaken]
    exact hline hnone
  · next first rest hsome =>
    obtain ⟨word, hword, rfl⟩ := List.mem_map.mp htaken
    exact (hwords word (hsome ▸ hword)).2

/-- The options of two calls are the same. -/
def SameOptions (left right : Region) : Prop :=
  (∀ key, valueAt left key = valueAt right key) ∧ left.loadAt setOffset 4 = right.loadAt setOffset 4

/-- Comments do not change what is read, and nothing but comments leaves every default. -/
def CommentsIgnored (input line : Text) (memory : Region) : Prop :=
  ∃ whole stripped, readOptions (some input) line (defaultOpt memory) = some whole ∧
    readOptions (some (stripComments input)) line (defaultOpt memory) = some stripped ∧
    SameOptions whole.opt stripped.opt ∧
    (words isSpace (stripComments input) = [] → ∀ key, valueAt whole.opt key = key.default)

/-- The words of comments give no option another value than the words outside comments, and if there
are no words outside comments, what the buffer holds gives none another value than its default. -/
structure CommentsHarmless (input line : Text) : Prop where
  same : ∀ key, valueAfter ((words isSpace input).map cString) key =
    valueAfter ((words isSpace (stripComments input)).map cString) key
  blank : words isSpace (stripComments input) = [] →
    ∀ key, valueAfter [cString line] key = key.default

/-- What a call takes from a file that has words, and from one that has none. -/
theorem linesTaken_eq (input line : Text) :
    linesTaken input line =
      if words isSpace input = [] then [cString line] else (words isSpace input).map cString := by
  unfold linesTaken
  split
  · next hnone => rw [if_pos hnone]
  · next first rest hsome => rw [if_neg (by simp [hsome]), hsome]

/-- A file that has words without its comments has words. -/
theorem words_ne_nil_of_stripComments {input : Text}
    (h : words isSpace (stripComments input) ≠ []) :
    words isSpace input ≠ [] := by
  obtain ⟨word, hword⟩ := List.exists_mem_of_ne_nil _ h
  obtain ⟨whole, hwhole, -⟩ := words_stripComments hword
  exact List.ne_nil_of_mem hwhole

/-- Among the lines that are taken the comments are harmless exactly if they are among the words. -/
theorem commentsHarmless_iff (input line : Text) :
    CommentsHarmless input line ↔
      (∀ key, valueAfter (linesTaken input line) key =
        valueAfter (linesTaken (stripComments input) line) key) ∧
        (words isSpace (stripComments input) = [] → ∀ key, valueAfter (linesTaken input line) key =
          key.default) := by
  rw [linesTaken_eq, linesTaken_eq]
  by_cases hblank : words isSpace (stripComments input) = []
  · have hnothing (key : Key) : valueAfter ([].map cString) key = key.default := rfl
    by_cases hempty : words isSpace input = []
    · simp only [if_pos hblank, if_pos hempty, implies_true, true_and]
      exact ⟨fun h => h.blank, fun h => ⟨by simp only [hblank, hempty, implies_true], h⟩⟩
    · simp only [if_pos hblank, if_neg hempty]
      constructor
      · intro h
        have hdefault (key : Key) : valueAfter ((words isSpace input).map cString) key =
            key.default := by
          rw [h.same key, hblank, hnothing]
        exact ⟨fun key => (hdefault key).trans (h.blank hblank key).symm, fun _ => hdefault⟩
      · intro h
        have hdefault := h.2 hblank
        refine ⟨fun key => ?_, fun _ key => ?_⟩
        · rw [hdefault key, hblank, hnothing]
        · exact (h.1 key).symm.trans (hdefault key)
  · have hwords := words_ne_nil_of_stripComments hblank
    simp only [if_neg hblank, if_neg hwords]
    exact ⟨fun h => ⟨h.same, fun hnone => absurd hnone hblank⟩,
      fun h => ⟨h.1, fun hnone => absurd hnone hblank⟩⟩

/-- What the buffer holds fits if it leaves every option at its default. -/
theorem fits_of_valueAfter {line : Text} (h : ∀ key, valueAfter [line] key = key.default) :
    fits line := by
  refine fits_of_default fun key value hsetting => ?_
  have hkey := h key
  simpa [valueAfter, assigned, hsetting] using hkey

/-- A line fits if every option has its default after it. -/
theorem fits_of_valueAt {line : Text} (hline : (0 : UInt8) ∉ line) {opt : Region}
    (h : ∀ key, valueAt (processLine line opt).2 key = key.default) : fits line := by
  refine fits_of_default fun key value hsetting => ?_
  have hvalue : (0 : UInt8) ∉ value := fun hzero => hline (setting_value_subset hsetting hzero)
  have hkey := h key
  simpa only [processLine_snd, hsetting, valueAt_storeAt hvalue] using hkey

/-- If comments are ignored, what the buffer holds fits where it is read. -/
theorem CommentsIgnored.fits {input line : Text} {memory : Region}
    (h : CommentsIgnored input line memory) (hblank : words isSpace (stripComments input) = []) :
    fits (cString line) := by
  obtain ⟨whole, stripped, -, hstripped, hsame, hdefault⟩ := h
  rw [readOptions_default, linesTaken_eq, if_pos hblank, hblank, if_pos (by simp)] at hstripped
  obtain rfl := Option.some.inj hstripped
  exact fits_of_valueAt (zero_notMem_cString _) fun key =>
    (hsame.1 key).symm.trans (hdefault hblank key)

/-- Comments are ignored exactly if they are harmless. -/
theorem commentsIgnored_iff {input : Text}
    (hwords : ∀ word ∈ words isSpace input, word.length < optBufLen)
    (hvalues : ∀ word ∈ words isSpace input, fits (cString word)) (line : Text) (memory : Region) :
    CommentsIgnored input line memory ↔ CommentsHarmless input line := by
  -- either side makes what the buffer holds fit where it is read
  by_cases hline : words isSpace (stripComments input) = [] → fits (cString line)
  · have hwhole : AllFit input line := by
      refine allFit_of (fun word hword => ⟨hwords word hword, hvalues word hword⟩) fun hnone =>
        hline ?_
      by_contra hsome
      exact words_ne_nil_of_stripComments hsome hnone
    have hstripped : AllFit (stripComments input) line :=
      allFit_of (fun word hword => stripComments_fits hwords hvalues hword) hline
    obtain ⟨whole, hwholeRead, hwholeValue, hwholeSet⟩ := readOptions_values hwhole memory
    obtain ⟨stripped, hstrippedRead, hstrippedValue, hstrippedSet⟩ :=
      readOptions_values hstripped memory
    rw [commentsHarmless_iff]
    simp only [CommentsIgnored, hwholeRead, hstrippedRead, Option.some.injEq, exists_and_left,
      exists_eq_left', SameOptions, hwholeValue, hstrippedValue, hwholeSet, hstrippedSet, and_true]
  · obtain ⟨hblank, hunfit⟩ := Classical.not_imp.mp hline
    exact iff_of_false (fun h => hunfit (h.fits hblank)) fun h =>
      hunfit (fits_of_valueAfter (h.blank hblank))

/-- The word `timeout=5`. -/
def timeoutFive : Text := Key.timeout.name ++ equals :: ascii ['5']

/-- A file that sets the timeout and has a comment of one word behind it on the same line. -/
def timeoutFile : Text := timeoutFive ++ ascii [' ', '#', 'x'] ++ [newline]

/-- A file with a comment meets the conditions, so its comments are ignored exactly if they are
harmless. -/
theorem commentsIgnored_timeoutFile :
    ((∀ word ∈ words isSpace timeoutFile, word.length < optBufLen) ∧
        ∀ word ∈ words isSpace timeoutFile, fits (cString word)) ∧
      (CommentsIgnored timeoutFile [] (fun _ => 0) ↔ CommentsHarmless timeoutFile []) :=
  ⟨⟨by decide +kernel, by decide +kernel⟩,
    commentsIgnored_iff (by decide +kernel) (by decide +kernel) [] fun _ => 0⟩

/-- Comments are not ignored if a file of comments changes an option. -/
theorem not_commentsIgnored {input line : Text} {memory : Region} (key : Key)
    (hblank : words isSpace (stripComments input) = [])
    (h : (readOptions (some input) line (defaultOpt memory)).map (fun reading =>
      valueAt reading.opt key) ≠
      some key.default) : ¬CommentsIgnored input line memory := by
  rintro ⟨whole, -, hwhole, -, -, hdefault⟩
  rw [hwhole] at h
  exact h (congrArg some (hdefault hblank key))

/-- A comment of two words sets an option, and so does what the buffer holds if the file is
empty. -/
theorem comment_sets_timeout :
    ((readOptions (some (ascii ['#', ' '] ++ timeoutFive ++ [newline])) []
      (defaultOpt fun _ => 0)).map
        (fun reading => valueAt reading.opt .timeout) = some (leBytes 4 5) ∧
      ¬CommentsIgnored (ascii ['#', ' '] ++ timeoutFive ++ [newline]) [] fun _ => 0) ∧
    ((readOptions (some []) timeoutFive (defaultOpt fun _ => 0)).map
        (fun reading => valueAt reading.opt .timeout) = some (leBytes 4 5) ∧
      ¬CommentsIgnored [] timeoutFive fun _ => 0) :=
  ⟨⟨by decide +kernel, not_commentsIgnored .timeout (by decide +kernel) (by decide +kernel)⟩,
    ⟨by decide +kernel, not_commentsIgnored .timeout (by decide +kernel) (by decide +kernel)⟩⟩

end VirtualFirmware.Opt
