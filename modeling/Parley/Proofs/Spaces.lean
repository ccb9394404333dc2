import Parley.Proofs.Keys
import Parley.Proofs.Regex.Ways
import Parley.Regex.Reader
import Parley.Substitution

/-!
# Spaces between words

Words are broken at every blank, and the text that substitutions work on has two spaces between
neighbouring words, so that each word can have a space of its own at each end. In an expression, a
space stands for spaces only.

Main results:

* `Text.breakWords_append_cons` — words are broken at every blank;
* `Substitutions.workingText_eq` — every word has its own spaces;
* `Regex.Way.took_space` — what a way through a space takes.
-/

namespace Parley

/-! ## Words and blanks -/

namespace Text

/-- Words are broken at every blank. -/
theorem breakWords_append_cons {c : Char} (hc : isBlank c = true) (s t : List Char) :
    breakWords (s ++ c :: t) = breakWords s ++ breakWords t := by
  induction s with
  | nil => exact if_pos hc
  | cons d s ih =>
    rw [List.cons_append, breakWords, breakWords, ih]
    split
    · rfl
    · cases s with
      | nil =>
        have hend : startsInWord (c :: t) = false := by rw [startsInWord, hc]; rfl
        rw [List.nil_append, hend]
        cases breakWords t <;> rfl
      | cons e s =>
        show attach d (!isBlank e) _ = attach d (!isBlank e) _ ++ _
        cases hws : breakWords (e :: s) with
        | cons w ws => rw [List.cons_append, attach, attach]; split <;> rfl
        | nil =>
          -- only blanks have no words
          rw [breakWords_eq_nil_iff.1 hws e List.mem_cons_self]
          cases breakWords t <;> rfl

theorem isBlank_space : isBlank ' ' = true := by decide

theorem breakWords_cons_space (s : List Char) : breakWords (' ' :: s) = breakWords s :=
  if_pos isBlank_space

/-- A text without blanks is one word. -/
theorem breakWords_word {w : List Char} (hw : w ≠ []) (hblank : ∀ c ∈ w, isBlank c = false) :
    breakWords w = [w] := by
  have hone := @breakWords_append w [] hw hblank rfl
  rwa [List.append_nil] at hone

/-- A word with a space at each end. -/
def spaced (w : List Char) : List Char := ' ' :: (w ++ [' '])

theorem breakWords_spaced_append {w : List Char} (hw : w ≠ [])
    (hblank : ∀ c ∈ w, isBlank c = false) (s : List Char) :
    breakWords (spaced w ++ s) = w :: breakWords s := by
  have hsplit : spaced w ++ s = [] ++ ' ' :: (w ++ ' ' :: s) := by simp [spaced]
  rw [hsplit, breakWords_append_cons isBlank_space, breakWords_append_cons isBlank_space,
    breakWords_word hw hblank]
  rfl

/-- The folding of case moves code points to characters above the space. -/
theorem target_of_mem_foldShifts :
    ∀ s ∈ foldShifts, 0x20 < s.target ∧
      (s.target + (s.span.last - s.span.first) < 0xD800 ∨
        0xDFFF < s.target ∧ s.target + (s.span.last - s.span.first) < 0x110000) := by
  decide +kernel

/-- Nothing but a space is a space in another case. -/
theorem foldChar_eq_space_iff {c : Char} : foldChar c = ' ' ↔ c = ' ' := by
  constructor
  · intro h
    rw [foldChar] at h
    rcases Shifts.apply_eq_or foldShifts c.toNat with heq | ⟨s, hs, hspan, himage⟩
    · rw [heq, Char.ofNat_toNat] at h
      exact h
    -- no range that is shifted has the space in its image
    · obtain ⟨htarget, hvalid⟩ := target_of_mem_foldShifts s hs
      have hoffset := Span.sub_le_of_has hspan
      have hchar : (Shifts.apply foldShifts c.toNat).isValidChar := by
        rcases hvalid with hv | ⟨hv, hv'⟩
        · exact Or.inl (by omega)
        · exact Or.inr ⟨by omega, by omega⟩
      have hcode : (Shifts.apply foldShifts c.toNat) = ' '.toNat := by
        rw [← h, Char.ofNat, dif_pos hchar]
        rfl
      have hspace : ' '.toNat = 0x20 := rfl
      omega
  · rintro rfl
    decide

end Text

open Text

namespace Regex

/-- The same for the letters of ASCII. -/
theorem eq_space_of_mem_asciiVariants {c : Char} (h : ' ' ∈ asciiVariants c) : c = ' ' := by
  have hcode : c.toNat = c.val.toNat := rfl
  have hspace : ' '.val.toNat = 32 := rfl
  simp only [asciiVariants, List.mem_cons, List.not_mem_nil, or_false] at h
  rcases h with h | h | h
  · exact h.symm
  -- shifting a letter by the distance of the two alphabets never gives a space
  · unfold Char.toLower at h
    split at h
    · next hc =>
      have hval := congrArg (fun d : Char => d.val.toNat) h
      have hfirst : 'A'.val.toNat = 65 := rfl
      have hlast : 'Z'.val.toNat = 90 := rfl
      simp only [UInt32.le_iff_toNat_le, ge_iff_le] at hc
      simp [UInt32.toNat_add] at hval
      omega
    · exact h.symm
  · unfold Char.toUpper at h
    split at h
    · next hc =>
      have hval := congrArg (fun d : Char => d.val.toNat) h
      have hfirst : 'a'.val.toNat = 97 := rfl
      have hlast : 'z'.val.toNat = 122 := rfl
      simp only [UInt32.le_iff_toNat_le] at hc
      simp [UInt32.toNat_add] at hval
      omega
    · exact h.symm

/-- What a space is read as accepts spaces only. -/
theorem exists_charExpr_space (f : Flags) :
    ∃ set : CharSet, charExpr f ' ' = .chars set ∧ ∀ c, set.mem c = true → c = ' ' := by
  unfold charExpr
  split
  · split
    · refine ⟨_, rfl, fun c hc => ?_⟩
      rw [CharSet.mem_caseless_iff, foldChar_eq_space_iff.2 rfl, foldChar_eq_space_iff] at hc
      exact hc
    · refine ⟨_, rfl, fun c hc => ?_⟩
      obtain ⟨d, hd, hmem⟩ := List.any_eq_true.1 hc
      obtain rfl : d = ' ' := by simpa [CharSet.mem] using hmem
      exact eq_space_of_mem_asciiVariants hd
  · exact ⟨_, rfl, fun c hc => by simpa [CharSet.mem] using hc⟩

/-- A way through such a part takes a space. -/
theorem Way.took_space {f : Flags} {n : Nat} {place : Place} {notes : Notes} {o : Outcome}
    (h : Way n [.run (charExpr f ' ')] place notes o) : place.Took [' '] o.place := by
  obtain ⟨set, hset, hspace⟩ := exists_charExpr_space f
  rw [hset] at h
  obtain ⟨-, c, rest, hrest, hc, rfl⟩ := way_chars.1 h
  obtain rfl := hspace c hc
  exact ⟨hrest, rfl⟩

theorem Place.Took.unique {p q : Place} {u v : List Char} (h : p.Took u q) (h' : p.Took v q) :
    u = v :=
  List.append_cancel_right (h.1.symm.trans h'.1)

end Regex

namespace Substitutions

theorem workingText_cons (w v : List Char) (ws : List (List Char)) :
    workingText (w :: v :: ws) = spaced w ++ workingText (v :: ws) := by
  simp [workingText, spaced, List.intercalate]

/-- If there are words, each has its own spaces. -/
theorem workingText_eq {ws : List (List Char)} (h : ws ≠ []) :
    workingText ws = ws.flatMap spaced := by
  induction ws with
  | nil => exact absurd rfl h
  | cons w ws ih =>
    cases ws with
    | nil => simp [workingText, spaced]
    | cons v ws => rw [workingText_cons, ih (List.cons_ne_nil v ws)]; rfl

/-- The spaces do not change the words. -/
theorem breakWords_workingText {ws : List (List Char)}
    (h : ∀ w ∈ ws, w ≠ [] ∧ ∀ c ∈ w, isBlank c = false) : breakWords (workingText ws) = ws := by
  by_cases hnil : ws = []
  · subst hnil
    decide
  · rw [workingText_eq hnil]
    clear hnil
    induction ws with
    | nil => rfl
    | cons w ws ih =>
      obtain ⟨hw, hws⟩ := List.forall_mem_cons.1 h
      rw [List.flatMap_cons, breakWords_spaced_append hw.1 hw.2, ih hws]

theorem breakWords_workingText_breakWords (text : List Char) :
    breakWords (workingText (breakWords text)) = breakWords text :=
  breakWords_workingText fun _ hw =>
    ⟨ne_nil_of_mem_breakWords hw, fun _ hc => not_isBlank_of_mem_breakWords hw hc⟩

end Substitutions

end Parley
