import Mathlib.Data.List.TakeWhile
import Mathlib.Tactic.Common

/-!
# Words between separators

The words of a list are its maximal runs without a separator. Removing comments, each from an
opening element up to but not including the next closing one, leaves of every word a front part.
-/

namespace VirtualFirmware.Library

universe u

variable {α : Type u}

/-- Put a word in front of others; an empty run is no word. -/
def putWord (word : List α) (words : List (List α)) : List (List α) :=
  match word with
  | [] => words
  | _ :: _ => word :: words

/-- The run at the front of a list, and the words after it. -/
def splitWords (sep : α → Bool) : List α → List α × List (List α)
  | [] => ([], [])
  | a :: rest =>
    if sep a then ([], putWord (splitWords sep rest).1 (splitWords sep rest).2)
    else (a :: (splitWords sep rest).1, (splitWords sep rest).2)

/-- The words of a list. -/
def words (sep : α → Bool) (list : List α) : List (List α) :=
  putWord (splitWords sep list).1 (splitWords sep list).2

/-- A word put in front is there with all the others, if it is one. -/
theorem mem_putWord {word candidate : List α} {others : List (List α)} :
    candidate ∈ putWord word others ↔ candidate = word ∧ word ≠ [] ∨ candidate ∈ others := by
  cases word with
  | nil => simp [putWord]
  | cons a rest => simp [putWord]

/-- What holds of all words after one was put in front, if it is one. -/
theorem forall_mem_putWord {P : List α → Prop} {word : List α} {others : List (List α)} :
    (∀ candidate ∈ putWord word others, P candidate) ↔
      (word ≠ [] → P word) ∧ ∀ other ∈ others, P other := by
  cases word with
  | nil => simp [putWord]
  | cons a rest => simp [putWord]

variable {sep : α → Bool}

/-- The run at the front is what stands before the first separator. -/
theorem splitWords_fst (list : List α) :
    (splitWords sep list).1 = list.takeWhile (fun a => !sep a) := by
  induction list with
  | nil => rfl
  | cons a rest ih =>
    rw [splitWords, List.takeWhile_cons]
    by_cases hsep : sep a
    · simp [hsep]
    · simp [hsep, ih]

/-- The words after the run at the front are those of what follows it. -/
theorem splitWords_snd (list : List α) :
    (splitWords sep list).2 = words sep (list.dropWhile (fun a => !sep a)) := by
  induction list with
  | nil => rfl
  | cons a rest ih =>
    rw [splitWords, List.dropWhile_cons]
    by_cases hsep : sep a
    · simp [hsep, words, splitWords, putWord]
    · simp [hsep, ih]

/-- Separators in front of a list are in no word. -/
theorem words_dropWhile (list : List α) : words sep (list.dropWhile sep) = words sep list := by
  induction list with
  | nil => rfl
  | cons a rest ih =>
    by_cases hsep : sep a
    · rw [List.dropWhile_cons_of_pos hsep, ih]
      simp [words, splitWords, hsep, putWord]
    · rw [List.dropWhile_cons_of_neg hsep]

/-- The first word of a list is its first run; the other words are those of what follows it. -/
theorem words_eq (list : List α) :
    words sep list = putWord ((list.dropWhile sep).takeWhile fun a => !sep a)
      (words sep (((list.dropWhile sep).dropWhile fun a => !sep a).dropWhile sep)) := by
  rw [← words_dropWhile list, words, splitWords_fst, splitWords_snd, words_dropWhile]

/-- After the separators in front of a list comes a word or nothing. -/
theorem takeWhile_dropWhile_eq_nil_iff (list : List α) :
    ((list.dropWhile sep).takeWhile fun a => !sep a) = [] ↔ list.dropWhile sep = [] := by
  cases hrest : list.dropWhile sep with
  | nil => simp
  | cons a rest =>
    have hne : list.dropWhile sep ≠ [] := by simp [hrest]
    have hhead := List.head_dropWhile_not sep hne
    simp only [hrest, List.head_cons] at hhead
    simp [hhead]

/-- A list without words has nothing but separators. -/
theorem words_eq_nil_iff (list : List α) : words sep list = [] ↔ list.dropWhile sep = [] := by
  rw [words_eq, ← takeWhile_dropWhile_eq_nil_iff]
  cases hrun : (list.dropWhile sep).takeWhile fun a => !sep a with
  | nil => simp [putWord, (takeWhile_dropWhile_eq_nil_iff list).mp hrun, words, splitWords]
  | cons a rest => simp [putWord]

/-- No word is empty. -/
theorem ne_nil_of_mem_words {list word : List α} (h : word ∈ words sep list) : word ≠ [] := by
  have hlater : ∀ word ∈ (splitWords sep list).2, word ≠ [] := by
    clear h
    induction list with
    | nil => exact fun word h => nomatch h
    | cons a rest ih =>
      by_cases hsep : sep a
      · simpa only [splitWords, hsep, if_true, forall_mem_putWord] using ⟨id, ih⟩
      · simpa [splitWords, hsep] using ih
  exact (forall_mem_putWord (P := (· ≠ []))).mpr ⟨id, hlater⟩ word h

section Comments

variable (opens closes : α → Bool)

/-- What is left of a list without its comments; the flag says whether it starts in one. -/
def uncomment : Bool → List α → List α
  | _, [] => []
  | false, a :: rest => if opens a then uncomment true rest else a :: uncomment false rest
  | true, a :: rest => if closes a then a :: uncomment false rest else uncomment true rest

variable {opens closes}

/-- The run at the front of what is left: the front of the run up to a comment, none in a
comment. -/
theorem splitWords_uncomment_fst (hopens : ∀ a, opens a → ¬sep a) (hcloses : ∀ a, closes a → sep a)
    (list : List α) :
    (splitWords sep (uncomment opens closes false list)).1 =
        (splitWords sep list).1.takeWhile (fun a => !opens a) ∧
      (splitWords sep (uncomment opens closes true list)).1 = [] := by
  induction list with
  | nil => exact ⟨rfl, rfl⟩
  | cons a rest ih =>
    constructor
    · by_cases hopen : opens a
      · simp [uncomment, splitWords, hopen, hopens a hopen, ih.2]
      · by_cases hsep : sep a
        · simp [uncomment, splitWords, hopen, hsep]
        · simp [uncomment, splitWords, hopen, hsep, ih.1]
    · by_cases hclose : closes a
      · simp [uncomment, splitWords, hclose, hcloses a hclose]
      · simp [uncomment, hclose, ih.2]

/-- A word counted from after the run at the front is also one of a longer list. -/
theorem mem_splitWords_cons {a : α} {rest word : List α} (h : word ∈ (splitWords sep rest).2) :
    word ∈ (splitWords sep (a :: rest)).2 := by
  by_cases hsep : sep a
  · simp only [splitWords, hsep, if_true]
    exact mem_putWord.mpr (.inr h)
  · simpa [splitWords, hsep] using h

/-- Every one of some words is the part of one of the others before its first opening element. -/
def Fronts (opens : α → Bool) (wholes fronts : List (List α)) : Prop :=
  ∀ word ∈ fronts, ∃ whole ∈ wholes, word = whole.takeWhile (fun a => !opens a)

/-- A run and its front become words together, or the front is empty and only the run does. -/
theorem Fronts.putWord {wholes fronts : List (List α)} (h : Fronts opens wholes fronts)
    (run : List α) :
    Fronts opens (putWord run wholes) (putWord (run.takeWhile fun a => !opens a) fronts) := by
  intro word hword
  rcases mem_putWord.mp hword with ⟨rfl, hne⟩ | hlater
  · refine ⟨run, mem_putWord.mpr (.inl ⟨rfl, ?_⟩), rfl⟩
    rintro rfl
    exact hne rfl
  · obtain ⟨whole, hmem, hwhole⟩ := h word hlater
    exact ⟨whole, mem_putWord.mpr (.inr hmem), hwhole⟩

/-- Each word after the front run of what is left is the front of a word of the whole list. -/
theorem splitWords_uncomment_snd (hopens : ∀ a, opens a → ¬sep a) (hcloses : ∀ a, closes a → sep a)
    (inside : Bool) (list : List α) :
    Fronts opens (splitWords sep list).2
      (splitWords sep (uncomment opens closes inside list)).2 := by
  induction list generalizing inside with
  | nil => cases inside <;> exact fun word h => nomatch h
  | cons a rest ih =>
    have hskip (inside : Bool) : Fronts opens (splitWords sep (a :: rest)).2
        (splitWords sep (uncomment opens closes inside rest)).2 := by
      intro word hword
      obtain ⟨whole, hmem, hwhole⟩ := ih inside word hword
      exact ⟨whole, mem_splitWords_cons hmem, hwhole⟩
    -- a separator that stays makes words of the runs behind it, in the list and in what is left
    have hput (hsep : sep a) : Fronts opens (splitWords sep (a :: rest)).2
        (splitWords sep (a :: uncomment opens closes false rest)).2 := by
      simp only [splitWords, hsep, if_true]
      rw [(splitWords_uncomment_fst hopens hcloses rest).1]
      exact (ih false).putWord _
    cases inside with
    | false =>
      by_cases hopen : opens a
      · simpa only [uncomment, hopen, if_true] using hskip true
      · by_cases hsep : sep a
        · simpa [uncomment, hopen] using hput hsep
        · simpa [uncomment, splitWords, hopen, hsep] using ih false
    | true =>
      by_cases hclose : closes a
      · simpa only [uncomment, hclose, if_true] using hput (hcloses a hclose)
      · simpa [uncomment, hclose] using hskip true

/-- Each word of a list without its comments is the front of a word of the list. -/
theorem fronts_uncomment (hopens : ∀ a, opens a → ¬sep a) (hcloses : ∀ a, closes a → sep a)
    (list : List α) :
    Fronts opens (words sep list) (words sep (uncomment opens closes false list)) := by
  rw [words, words, (splitWords_uncomment_fst hopens hcloses list).1]
  exact (splitWords_uncomment_snd hopens hcloses false list).putWord _

end Comments

end VirtualFirmware.Library
