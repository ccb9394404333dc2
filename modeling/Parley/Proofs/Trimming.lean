import Mathlib.Data.List.DropRight
import Parley.Text.Words

/-!
# Trimming

Sentences, answers, values and names of sets are taken without the blanks at their ends. Main
results:

* `exists_blanks_strip` — what is taken away from the ends of a text are blanks;
* `not_isBlank_of_head?_strip`, `not_isBlank_of_getLast?_strip` — all of them are;
* `strip_eq_of_ends` — nothing else changes;
* `strip_eq_nil_iff` — exactly the blank texts have nothing left.
-/

namespace Parley.Text

/-- What is taken away from the ends of a text are blanks. -/
theorem exists_blanks_strip (s : List Char) :
    ∃ before behind, s = before ++ strip s ++ behind ∧ (∀ c ∈ before, isBlank c = true) ∧
      ∀ c ∈ behind, isBlank c = true := by
  have hfirst : s.takeWhile isBlank ++ s.dropWhile isBlank = s := List.takeWhile_append_dropWhile
  have hlast : strip s ++ (s.dropWhile isBlank).rtakeWhile isBlank = s.dropWhile isBlank := by
    rw [strip, dropEndWhile, List.rtakeWhile, ← List.reverse_append,
      List.takeWhile_append_dropWhile, List.reverse_reverse]
  refine ⟨s.takeWhile isBlank, (s.dropWhile isBlank).rtakeWhile isBlank, ?_, ?_, ?_⟩
  · rw [List.append_assoc, hlast, hfirst]
  · exact fun c hc => List.mem_takeWhile_imp hc
  · exact fun c hc => List.mem_rtakeWhile_imp hc

theorem isInfix_strip (s : List Char) : strip s <:+: s := by
  obtain ⟨before, behind, hs, -, -⟩ := exists_blanks_strip s
  exact ⟨before, behind, hs.symm⟩

/-- Nothing but blanks is taken away. -/
theorem filter_strip (s : List Char) :
    (strip s).filter (fun c => !isBlank c) = s.filter fun c => !isBlank c := by
  obtain ⟨before, behind, hs, hbefore, hbehind⟩ := exists_blanks_strip s
  have hnone : ∀ {blanks : List Char}, (∀ c ∈ blanks, isBlank c = true) →
      blanks.filter (fun c => !isBlank c) = [] := by
    intro blanks hblanks
    rw [List.filter_eq_nil_iff]
    intro c hc
    simp [hblanks c hc]
  conv_rhs => rw [hs, List.filter_append, List.filter_append, hnone hbefore, hnone hbehind]
  rw [List.nil_append, List.append_nil]

theorem not_isBlank_of_getLast?_strip {s : List Char} {c : Char} (h : c ∈ (strip s).getLast?) :
    isBlank c = false :=
  getLast?_dropEndWhile h

theorem not_isBlank_of_head?_strip {s : List Char} {c : Char} (h : c ∈ (strip s).head?) :
    isBlank c = false := by
  -- what is taken away behind does not matter to the first character
  obtain ⟨rest, hrest⟩ := List.rdropWhile_prefix isBlank (s.dropWhile isBlank)
  have hfirst : (s.dropWhile isBlank).head? = some c := by
    rw [← hrest, List.head?_append]
    exact Option.or_eq_some_iff.2 (Or.inl h)
  have hnot := List.head?_dropWhile_not isBlank s
  rw [hfirst] at hnot
  exact hnot

/-- Nothing is taken away from a text that has no blanks at its ends. -/
theorem strip_eq_of_ends {s : List Char} (hhead : ∀ c ∈ s.head?, isBlank c = false)
    (hlast : ∀ c ∈ s.getLast?, isBlank c = false) : strip s = s := by
  have hfirst : s.dropWhile isBlank = s := by
    cases s with
    | nil => rfl
    | cons c rest => exact List.dropWhile_cons_of_neg (by simp [hhead c rfl])
  rw [strip, hfirst]
  refine List.rdropWhile_eq_self_iff.2 fun hne => ?_
  rw [hlast _ (List.getLast?_eq_some_getLast hne)]
  exact Bool.false_ne_true

theorem strip_eq_self {s : List Char} (h : ∀ c ∈ s, isBlank c = false) : strip s = s :=
  strip_eq_of_ends (fun c hc => h c (List.mem_of_head? hc)) fun c hc =>
    h c (List.mem_of_getLast? hc)

/-- A text that is blank has nothing left, and no other text. -/
theorem strip_eq_nil_iff {s : List Char} : strip s = [] ↔ ∀ c ∈ s, isBlank c = true := by
  constructor
  · intro hnil
    have hnone := filter_strip s
    rw [hnil, List.filter_nil, eq_comm, List.filter_eq_nil_iff] at hnone
    intro c hc
    simpa using hnone c hc
  · intro hall
    by_contra hne
    have hblank := hall _ ((isInfix_strip s).subset (List.getLast_mem hne))
    rw [not_isBlank_of_getLast?_strip (List.getLast?_eq_some_getLast hne)] at hblank
    cases hblank

theorem strip_eq_nil_iff_all {s : List Char} : strip s = [] ↔ s.all isBlank = true := by
  rw [strip_eq_nil_iff, List.all_eq_true]

/-- In front of a character that is no blank, blanks are taken away at the start only. -/
theorem strip_concat {c : Char} (hc : isBlank c = false) (s : List Char) :
    strip (s ++ [c]) = s.dropWhile isBlank ++ [c] := by
  have hstart : (s ++ [c]).dropWhile isBlank = s.dropWhile isBlank ++ [c] := by
    rw [List.dropWhile_append]
    cases s.dropWhile isBlank with
    | nil => simp [hc]
    | cons d rest => simp
  rw [strip, hstart]
  exact List.rdropWhile_concat_neg isBlank _ c (by simp [hc])

theorem strip_dropWhile (s : List Char) : strip (s.dropWhile isBlank) = strip s := by
  rw [strip, strip, List.dropWhile_idempotent]

end Parley.Text
