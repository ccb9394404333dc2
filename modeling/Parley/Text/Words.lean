import Parley.Text.Property

/-!
# Words and blanks

A text is read as the sequence of its maximal runs of characters that are not blank. Main results:

* `breakWords_eq_nil_iff` — a text has no words exactly when all of it is blank;
* `not_isBlank_of_mem_breakWords`, `ne_nil_of_mem_breakWords` — words are never empty and hold no
  blank;
* `flatten_breakWords` — the words together are the text without its blanks;
* `words_unwords` — joining words by single spaces loses nothing.
-/

namespace Parley.Text

/-! ## Taking words apart -/

/-- Puts a character in front of a list of words: into the first of them if it touches that word,
or as a word of its own. -/
def attach (c : Char) (touches : Bool) : List (List Char) → List (List Char)
  | [] => [[c]]
  | w :: ws => if touches then (c :: w) :: ws else [c] :: w :: ws

/-- Whether a text starts inside a word. -/
def startsInWord : List Char → Bool
  | [] => false
  | c :: _ => !isBlank c

/-- The maximal runs of characters that are not blank. -/
def breakWords : List Char → List (List Char)
  | [] => []
  | c :: rest =>
    if isBlank c then breakWords rest else attach c (startsInWord rest) (breakWords rest)

theorem attach_ne_nil (c : Char) (touches : Bool) (ws : List (List Char)) :
    attach c touches ws ≠ [] := by
  cases ws <;> simp [attach]
  split <;> simp

theorem flatten_attach (c : Char) (touches : Bool) (ws : List (List Char)) :
    (attach c touches ws).flatten = c :: ws.flatten := by
  cases ws <;> simp [attach]
  split <;> simp

/-- A text has no words exactly when all of it is blank. -/
theorem breakWords_eq_nil_iff {s : List Char} : breakWords s = [] ↔ ∀ c ∈ s, isBlank c = true := by
  induction s with
  | nil => simp [breakWords]
  | cons c rest ih =>
    by_cases hc : isBlank c = true
    · simp [breakWords, hc, ih]
    · simp [breakWords, hc, attach_ne_nil]

/-- The words together are the text without its blanks. -/
theorem flatten_breakWords (s : List Char) :
    (breakWords s).flatten = s.filter fun c => !isBlank c := by
  induction s with
  | nil => rfl
  | cons c rest ih => by_cases hc : isBlank c = true <;> simp [breakWords, hc, flatten_attach, ih]

/-- No word is empty. -/
theorem ne_nil_of_mem_breakWords {s w : List Char} (h : w ∈ breakWords s) : w ≠ [] := by
  induction s generalizing w with
  | nil => simp [breakWords] at h
  | cons c rest ih =>
    by_cases hc : isBlank c = true
    · exact ih (by simpa [breakWords, hc] using h)
    · have hin : w ∈ attach c (startsInWord rest) (breakWords rest) := by
        simpa [breakWords, hc] using h
      cases hws : breakWords rest with
      | nil =>
        rw [hws, attach, List.mem_singleton] at hin
        simp [hin]
      | cons v vs =>
        rw [hws, attach] at hin
        split at hin
        · rcases List.mem_cons.1 hin with rfl | hv
          · simp
          · exact ih (hws ▸ List.mem_cons_of_mem v hv)
        · rcases List.mem_cons.1 hin with rfl | hv
          · simp
          · exact ih (hws ▸ hv)

/-- No word holds a blank. -/
theorem not_isBlank_of_mem_breakWords {s w : List Char} (h : w ∈ breakWords s) {c : Char}
    (hc : c ∈ w) : isBlank c = false := by
  have hmem : c ∈ (breakWords s).flatten := List.mem_flatten.2 ⟨w, h, hc⟩
  rw [flatten_breakWords, List.mem_filter] at hmem
  simpa using hmem.2

/-! ## Putting words together -/

/-- Words with one space between neighbours. -/
def joinWords : List (List Char) → List Char
  | [] => []
  | [w] => w
  | w :: v :: ws => w ++ ' ' :: joinWords (v :: ws)

/-- A word in front of a text that starts with a blank or ends there is the first of its words. -/
theorem breakWords_append {w rest : List Char} (hw : w ≠ []) (hblank : ∀ c ∈ w, isBlank c = false)
    (hrest : startsInWord rest = false) : breakWords (w ++ rest) = w :: breakWords rest := by
  induction w with
  | nil => exact absurd rfl hw
  | cons c v ih =>
    have hc : isBlank c = false := hblank c (List.mem_cons_self ..)
    cases v with
    | nil =>
      cases hws : breakWords rest <;> simp [breakWords, hc, hrest, hws, attach]
    | cons d u =>
      have hd : isBlank d = false := hblank d (by simp)
      have hih := ih (by simp) fun e he => hblank e (List.mem_cons_of_mem c he)
      simp only [List.cons_append] at hih ⊢
      rw [breakWords, hih]
      simp [hc, startsInWord, hd, attach]

/-- Joining words by single spaces loses nothing. -/
theorem breakWords_joinWords {ws : List (List Char)}
    (h : ∀ w ∈ ws, w ≠ [] ∧ ∀ c ∈ w, isBlank c = false) : breakWords (joinWords ws) = ws := by
  induction ws with
  | nil => rfl
  | cons w ws ih =>
    have hw := h w (List.mem_cons_self ..)
    have hrest := ih fun v hv => h v (List.mem_cons_of_mem w hv)
    cases ws with
    | nil =>
      have hend : startsInWord [] = false := rfl
      simpa [joinWords, breakWords] using breakWords_append hw.1 hw.2 hend
    | cons v vs =>
      have hspace : isBlank ' ' = true := by decide
      rw [joinWords, breakWords_append hw.1 hw.2 (by simp [startsInWord, hspace]), breakWords,
        if_pos hspace, hrest]

/-! ## Blanks at the ends -/

/-- A text without the characters at its end that satisfy a test. -/
def dropEndWhile (p : Char → Bool) (s : List Char) : List Char :=
  (s.reverse.dropWhile p).reverse

/-- A text without the blanks at its ends. -/
def strip (s : List Char) : List Char :=
  dropEndWhile isBlank (s.dropWhile isBlank)

/-- What is left of a text ends with a character that was not to be dropped. -/
theorem getLast?_dropEndWhile {p : Char → Bool} {s : List Char} {c : Char}
    (h : (dropEndWhile p s).getLast? = some c) : p c = false := by
  rw [dropEndWhile, List.getLast?_reverse] at h
  have hnot := List.head?_dropWhile_not p s.reverse
  rw [h] at hnot
  exact hnot

/-- Blanks at the start of a text do not matter to its words. -/
theorem breakWords_dropWhile (s : List Char) : breakWords (s.dropWhile isBlank) = breakWords s := by
  induction s with
  | nil => rfl
  | cons c rest ih =>
    rw [List.dropWhile_cons]
    split
    · next hc => rw [breakWords, if_pos hc, ih]
    · rfl

/-! ## The same on strings -/

/-- The words of a text. -/
def words (s : String) : List String :=
  (breakWords s.toList).map String.ofList

/-- Words with one space between neighbours. -/
def unwords (ws : List String) : String :=
  String.ofList (joinWords (ws.map String.toList))

/-- A text without the blanks at its ends. -/
def trim (s : String) : String :=
  String.ofList (strip s.toList)

/-- Whether a text is nothing but blanks. -/
def isBlankText (s : String) : Bool :=
  s.toList.all isBlank

/-- The parts of a text between the occurrences of a separator; there is at least one part. -/
def splitOnChar (separator : Char) : List Char → List (List Char)
  | [] => [[]]
  | c :: rest =>
    if c == separator then [] :: splitOnChar separator rest
    else match splitOnChar separator rest with
      | [] => [[c]]
      | part :: parts => (c :: part) :: parts

/-- A string that is a word: not empty and without blanks. -/
def IsWord (w : String) : Prop :=
  w.toList ≠ [] ∧ ∀ c ∈ w.toList, isBlank c = false

/-- The words of a text are words. -/
theorem isWord_of_mem_words {s w : String} (h : w ∈ words s) : IsWord w := by
  obtain ⟨v, hv, rfl⟩ := List.mem_map.1 h
  simp only [IsWord, String.toList_ofList]
  exact ⟨ne_nil_of_mem_breakWords hv, fun c hc => not_isBlank_of_mem_breakWords hv hc⟩

/-- Joining words by single spaces loses nothing. -/
theorem words_unwords {ws : List String} (h : ∀ w ∈ ws, IsWord w) : words (unwords ws) = ws := by
  have hlist : ∀ w ∈ ws.map String.toList, w ≠ [] ∧ ∀ c ∈ w, isBlank c = false := by
    intro w hw
    obtain ⟨v, hv, rfl⟩ := List.mem_map.1 hw
    exact h v hv
  simp [words, unwords, breakWords_joinWords hlist]

end Parley.Text
