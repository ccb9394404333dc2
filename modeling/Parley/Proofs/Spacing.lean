import Mathlib.Data.List.DropRight
import Mathlib.Data.List.Forall2
import Parley.Config

/-!
# Texts that differ in blanks only

Blanks are handled in four places before a request is matched: where it is cut into sentences, which
looks one character ahead and trims the pieces, where substitutions are applied, which leave the
text alone if there are none, where marks and blanks are cut off at the end, and where the words are
counted. All four treat texts alike that have the same words. For this, texts are compared character
by character: the same words are the same characters with blanks in the same places, however many
there are in each.

Main results:

* `Text.respaced_iff` — texts have the same words exactly if they differ in blanks only;
* `forall₂_splitSentences` — such texts have the same sentences, up to blanks;
* `words_normalize_congr` — and their sentences have the same words when ready for matching.
-/

namespace Parley

namespace Text

/-! ## The same characters with other blanks -/

/-- Whether two texts are the same up to blanks. Behind a character of a word there is a blank or
the end in both of them, or in neither. -/
inductive Respaced : List Char → List Char → Prop where
  | nil : Respaced [] []
  | left {c : Char} {s t : List Char} (blank : isBlank c = true) :
      Respaced s t → Respaced (c :: s) t
  | right {c : Char} {s t : List Char} (blank : isBlank c = true) :
      Respaced s t → Respaced s (c :: t)
  | word {c : Char} {s t : List Char} (notBlank : isBlank c = false)
      (starts : startsInWord s = startsInWord t) : Respaced s t → Respaced (c :: s) (c :: t)

theorem Respaced.refl (s : List Char) : Respaced s s := by
  induction s with
  | nil => exact .nil
  | cons c rest ih =>
    by_cases hc : isBlank c = true
    · exact .left hc (.right hc ih)
    · exact .word (Bool.eq_false_iff.2 hc) rfl ih

theorem Respaced.symm {s t : List Char} (h : Respaced s t) : Respaced t s := by
  induction h with
  | nil => exact .nil
  | left blank _ ih => exact .right blank ih
  | right blank _ ih => exact .left blank ih
  | word notBlank starts _ ih => exact .word notBlank starts.symm ih

theorem Respaced.breakWords_eq {s t : List Char} (h : Respaced s t) :
    breakWords s = breakWords t := by
  induction h with
  | nil => rfl
  | left blank _ ih => rw [breakWords, if_pos blank, ih]
  | right blank _ ih => rw [breakWords, if_pos blank, ih]
  | word notBlank starts _ ih =>
    rw [breakWords, breakWords, notBlank, if_neg Bool.false_ne_true, if_neg Bool.false_ne_true, ih,
      starts]

theorem respaced_nil_left {t : List Char} (h : breakWords t = []) : Respaced [] t := by
  induction t with
  | nil => exact .nil
  | cons c rest ih =>
    rw [breakWords_eq_nil_iff, List.forall_mem_cons] at h
    exact .right h.1 (ih (breakWords_eq_nil_iff.2 h.2))

theorem startsInWord_of_breakWords_eq_nil {s : List Char} (h : breakWords s = []) :
    startsInWord s = false := by
  cases s with
  | nil => rfl
  | cons c rest =>
    rw [breakWords_eq_nil_iff, List.forall_mem_cons] at h
    rw [startsInWord, h.1]
    rfl

/-- What a character was put in front of, and whether it touches the word there, can be read off the
words, because no word is empty. -/
theorem attach_inj {c d : Char} {a b : Bool} {ws vs : List (List Char)} (hws : ∀ w ∈ ws, w ≠ [])
    (hvs : ∀ v ∈ vs, v ≠ []) (ha : ws = [] → a = false) (hb : vs = [] → b = false)
    (h : attach c a ws = attach d b vs) : c = d ∧ a = b ∧ ws = vs := by
  -- without words nothing is attached, so that the flags are determined there too
  cases ws with
  | nil =>
    obtain rfl := ha rfl
    cases vs with
    | nil =>
      obtain rfl := hb rfl
      simpa [attach] using h
    | cons v vs =>
      have hv : v ≠ [] := hvs v (List.mem_cons_self ..)
      cases b <;> simp_all [attach]
  | cons w ws =>
    have hw : w ≠ [] := hws w (List.mem_cons_self ..)
    cases vs with
    | nil =>
      obtain rfl := hb rfl
      cases a <;> simp_all [attach]
    | cons v vs =>
      have hv : v ≠ [] := hvs v (List.mem_cons_self ..)
      cases a <;> cases b <;> simp_all [attach]

/-- **Texts have the same words exactly if they differ in blanks only.** -/
theorem respaced_iff {s t : List Char} : Respaced s t ↔ breakWords s = breakWords t := by
  refine ⟨Respaced.breakWords_eq, ?_⟩
  intro h
  -- induction on both texts, where a blank is left out on its side
  induction s generalizing t with
  | nil => exact respaced_nil_left h.symm
  | cons c s ih =>
    by_cases hc : isBlank c = true
    · rw [breakWords, if_pos hc] at h
      exact .left hc (ih h)
    · rw [breakWords, if_neg hc] at h
      induction t with
      | nil => exact absurd h (attach_ne_nil _ _ _)
      | cons d t ih' =>
        by_cases hd : isBlank d = true
        · rw [breakWords, if_pos hd] at h
          exact .right hd (ih' h)
        · rw [breakWords, if_neg hd] at h
          obtain ⟨rfl, hstarts, hrest⟩ := attach_inj (fun w hw => ne_nil_of_mem_breakWords hw)
            (fun v hv => ne_nil_of_mem_breakWords hv) startsInWord_of_breakWords_eq_nil
            startsInWord_of_breakWords_eq_nil h
          exact .word (Bool.eq_false_iff.2 hc) hstarts (ih hrest)

/-- Strings have the same words exactly if they differ in blanks only. -/
theorem words_eq_iff_respaced {a b : String} : words a = words b ↔ Respaced a.toList b.toList := by
  have hinjective : Function.Injective String.ofList := fun _ _ h => String.ofList_injective h
  rw [words, words, (List.map_injective_iff.2 hinjective).eq_iff, respaced_iff]

/-! ## Blanks and marks at the ends -/

theorem dropEndWhile_cons (p : Char → Bool) (c : Char) (s : List Char) :
    dropEndWhile p (c :: s) =
      if dropEndWhile p s = [] then (if p c then [] else [c]) else c :: dropEndWhile p s := by
  rw [dropEndWhile, dropEndWhile, List.reverse_cons, List.dropWhile_append]
  cases s.reverse.dropWhile p with
  | nil => by_cases hc : p c = true <;> simp [hc]
  | cons d rest => simp

/-- If blanks are dropped from the end, a text in which only blanks are left is empty. -/
theorem dropEndWhile_eq_nil_of_respaced {p : Char → Bool} (hp : ∀ c, isBlank c = true → p c = true)
    {s : List Char} (h : Respaced [] (dropEndWhile p s)) : dropEndWhile p s = [] := by
  have hblank := breakWords_eq_nil_iff.1 h.breakWords_eq.symm
  by_contra hne
  -- the last character would have been dropped
  exact s.rdropWhile_last_not p hne (hp _ (hblank _ (List.getLast_mem hne)))

theorem startsInWord_dropEndWhile {p : Char → Bool} {s : List Char} (h : dropEndWhile p s ≠ []) :
    startsInWord (dropEndWhile p s) = startsInWord s := by
  cases s with
  | nil => rfl
  | cons c s =>
    rw [dropEndWhile_cons] at h ⊢
    split
    · next hs =>
      -- then the first character is the only one that is left
      rw [if_pos hs] at h
      split
      · next hc => exact absurd (if_pos hc) h
      · rfl
    · rfl

/-- Texts that differ in blanks only do so after blanks, and maybe other characters, were dropped
from their ends. -/
theorem Respaced.dropEndWhile {p : Char → Bool} (hp : ∀ c, isBlank c = true → p c = true)
    {s t : List Char} (h : Respaced s t) :
    Respaced (Text.dropEndWhile p s) (Text.dropEndWhile p t) := by
  induction h with
  | nil => exact .nil
  -- a blank that only one of the texts has is dropped exactly if nothing is left behind it
  | @left c s t blank _ ih =>
    rw [dropEndWhile_cons, if_pos (hp c blank)]
    split
    · next hs => rwa [hs] at ih
    · exact .left blank ih
  | @right c s t blank _ ih =>
    rw [dropEndWhile_cons p c t, if_pos (hp c blank)]
    split
    · next ht => rwa [ht] at ih
    · exact .right blank ih
  | @word c s t notBlank starts _ ih =>
    rw [dropEndWhile_cons, dropEndWhile_cons p c t]
    -- a shared character is dropped from both texts or from neither: what is left behind it is
    -- empty in both or in neither
    by_cases hs : Text.dropEndWhile p s = []
    · have ht : Text.dropEndWhile p t = [] := dropEndWhile_eq_nil_of_respaced hp (hs ▸ ih)
      rw [if_pos hs, if_pos ht]
      exact .refl _
    · have ht : Text.dropEndWhile p t ≠ [] := by
        intro ht
        exact hs (dropEndWhile_eq_nil_of_respaced hp (ht ▸ ih).symm)
      rw [if_neg hs, if_neg ht]
      refine .word notBlank ?_ ih
      rw [startsInWord_dropEndWhile hs, startsInWord_dropEndWhile ht, starts]

/-- Texts that differ in blanks only do so without the blanks at their ends, and then they are empty
together. -/
theorem Respaced.strip {s t : List Char} (h : Respaced s t) :
    Respaced (Text.strip s) (Text.strip t) := by
  refine Respaced.dropEndWhile (fun _ hc => hc) (respaced_iff.2 ?_)
  rw [breakWords_dropWhile, breakWords_dropWhile, h.breakWords_eq]

theorem Respaced.strip_eq_nil {s t : List Char} (h : Respaced s t) (hs : Text.strip s = []) :
    Text.strip t = [] :=
  dropEndWhile_eq_nil_of_respaced (fun _ hc => hc) (hs ▸ h.strip)

end Text

open Text

/-! ## Sentences -/

namespace Sentence

theorem endsBefore_of_not_startsInWord {s : List Char} (h : startsInWord s = false) :
    endsBefore s = true := by
  cases s with
  | nil => rfl
  | cons c rest =>
    rw [startsInWord, Bool.not_eq_false'] at h
    rw [endsBefore, h, Bool.true_or]

/-- Whether a mark ends its sentence is the same before texts that differ in blanks only, if both
start in a word or neither does. -/
theorem endsBefore_eq_of_respaced {s t : List Char} (h : Respaced s t)
    (hstarts : startsInWord s = startsInWord t) : endsBefore s = endsBefore t := by
  cases hs : startsInWord s with
  | false =>
    rw [endsBefore_of_not_startsInWord hs, endsBefore_of_not_startsInWord (hstarts ▸ hs)]
  | true =>
    -- both start with the same character
    cases h with
    | nil => rfl
    | left blank =>
      rw [startsInWord, blank] at hs
      cases hs
    | right blank =>
      rw [hs, startsInWord, blank] at hstarts
      cases hstarts
    | word => rfl

variable {marks : List Char} {keep : Bool}

/-- A blank belongs to the first piece behind it, if no mark is a blank. -/
theorem pieces_cons_of_blank (hmarks : ∀ c ∈ marks, isBlank c = false) {c : Char}
    (hc : isBlank c = true) {s p : List Char} {ps : List (List Char)}
    (h : pieces marks keep s = p :: ps) : pieces marks keep (c :: s) = (c :: p) :: ps := by
  have hmark : marks.contains c = false := by
    rw [Bool.eq_false_iff, Ne, List.contains_iff_mem]
    intro hmem
    rw [hmarks c hmem] at hc
    cases hc
  rw [pieces, hmark, Bool.false_and, if_neg Bool.false_ne_true, h, consFirst]

/-- The first piece of a text that does not start in a word does not do so either. -/
theorem startsInWord_of_pieces (hmarks : ∀ c ∈ marks, isBlank c = false) {s p : List Char}
    {ps : List (List Char)} (hs : startsInWord s = false) (h : pieces marks keep s = p :: ps) :
    startsInWord p = false := by
  cases s with
  | nil =>
    obtain ⟨rfl, -⟩ := List.cons.inj h
    rfl
  | cons c rest =>
    have hc : isBlank c = true := by simpa [startsInWord] using hs
    obtain ⟨q, qs, hrest⟩ := List.exists_cons_of_ne_nil (pieces_ne_nil marks keep rest)
    rw [pieces_cons_of_blank hmarks hc hrest] at h
    obtain ⟨rfl, -⟩ := List.cons.inj h
    rw [startsInWord, hc]
    rfl

/-- Texts that differ in blanks only are cut into pieces that differ in blanks only. -/
theorem respaced_pieces (hmarks : ∀ c ∈ marks, isBlank c = false) {s t : List Char}
    (h : Respaced s t) :
    ∃ p ps q qs, pieces marks keep s = p :: ps ∧ pieces marks keep t = q :: qs ∧ Respaced p q ∧
      List.Forall₂ Respaced ps qs ∧
      (startsInWord s = startsInWord t → startsInWord p = startsInWord q) := by
  -- a character of a word may be put in front of two pieces only if both start in a word or neither
  induction h with
  | nil => exact ⟨[], [], [], [], rfl, rfl, .nil, .nil, id⟩
  | @left c s t blank _ ih =>
    obtain ⟨p, ps, q, qs, hs, ht, hpq, hrest, -⟩ := ih
    refine ⟨c :: p, ps, q, qs, pieces_cons_of_blank hmarks blank hs, ht, .left blank hpq, hrest, ?_⟩
    intro hstarts
    rw [startsInWord, blank] at hstarts ⊢
    exact (startsInWord_of_pieces hmarks hstarts.symm ht).symm
  | @right c s t blank _ ih =>
    obtain ⟨p, ps, q, qs, hs, ht, hpq, hrest, -⟩ := ih
    refine ⟨p, ps, c :: q, qs, hs, pieces_cons_of_blank hmarks blank ht, .right blank hpq, hrest,
      ?_⟩
    intro hstarts
    have hblank : ∀ rest, startsInWord (c :: rest) = false := by
      intro rest
      rw [startsInWord, blank]
      rfl
    rw [hblank] at hstarts ⊢
    exact startsInWord_of_pieces hmarks hstarts hs
  | @word c s t notBlank starts hst ih =>
    obtain ⟨p, ps, q, qs, hs, ht, hpq, hrest, hfirst⟩ := ih
    have hends := endsBefore_eq_of_respaced hst starts
    rw [pieces, pieces, hends, hs, ht]
    split
    · -- the sentence ends behind this character on both sides
      exact ⟨_, _, _, _, rfl, rfl, .refl _, .cons hpq hrest, fun _ => rfl⟩
    · exact ⟨_, _, _, _, rfl, rfl, .word notBlank (hfirst starts) hpq, hrest, fun _ => rfl⟩

end Sentence

/-- Texts with the same words have the same sentences, up to blanks. -/
theorem forall₂_splitSentences {marks : List Char} (hmarks : ∀ c ∈ marks, isBlank c = false)
    (keep : Bool) {a b : String} (h : words a = words b) :
    List.Forall₂ (fun s t => words s = words t) (splitSentences marks keep a)
      (splitSentences marks keep b) := by
  obtain ⟨p, ps, q, qs, ha, hb, hpq, hrest, -⟩ :=
    @Sentence.respaced_pieces marks keep hmarks _ _ (words_eq_iff_respaced.1 h)
  have hpieces : List.Forall₂ Respaced (Sentence.pieces marks keep a.toList)
      (Sentence.pieces marks keep b.toList) := by
    rw [ha, hb]
    exact .cons hpq hrest
  -- a piece that has blanks only is left out on both sides
  rw [splitSentences, splitSentences, List.forall₂_map_left_iff, List.forall₂_map_right_iff]
  have hstripped : List.Forall₂ (fun s t => Respaced s t ∧ (s = [] ↔ t = []))
      ((Sentence.pieces marks keep a.toList).map strip)
      ((Sentence.pieces marks keep b.toList).map strip) := by
    rw [List.forall₂_map_left_iff, List.forall₂_map_right_iff]
    exact hpieces.imp fun _ _ hst => ⟨hst.strip, hst.strip_eq_nil, hst.symm.strip_eq_nil⟩
  have hkept : ∀ s t, (Respaced s t ∧ (s = [] ↔ t = [])) →
      ((!s.isEmpty) = true ↔ (!t.isEmpty) = true) := by
    rintro s t ⟨-, hnil⟩
    simp [hnil]
  refine (List.rel_filter (fun s t => hkept s t) hstripped).imp ?_
  rintro s t ⟨hst, -⟩
  rw [words_eq_iff_respaced, String.toList_ofList, String.toList_ofList]
  exact hst

/-! ## Sentences ready for matching -/

/-- Substitutions do not tell texts apart that have the same words. -/
theorem words_apply_congr (list : Substitutions) {a b : String} (h : words a = words b) :
    words (list.apply a) = words (list.apply b) := by
  have hwords := (words_eq_iff_respaced.1 h).breakWords_eq
  unfold Substitutions.apply
  split
  · exact h
  · exact h
  · rw [hwords]

/-- **Sentences that have the same words have the same words when they are ready for matching.** -/
theorem words_normalize_congr (list : Substitutions) (marks : List Char) {a b : String}
    (h : words a = words b) :
    words (normalize list marks a) = words (normalize list marks b) := by
  rw [words_eq_iff_respaced, normalize, normalize, String.toList_ofList, String.toList_ofList]
  refine Respaced.dropEndWhile (fun c hc => ?_) (words_eq_iff_respaced.1 (words_apply_congr list h))
  rw [hc, Bool.or_true]

end Parley
