import Parley.Proofs.Keys

/-!
# Keys of keys

What is kept under a key is found again under the key of that key only if the two are the same. They
are, because lower case is settled after one step: no image of the lower-case map is moved by it
again, and no character that a lower case consists of changes by itself. The small sigmas, of which
a text may take either, are no exception.

Main results:

* `Text.apply_apply_lowerShifts` — the lower-case map leaves its own images where they are;
* `Text.lowercase_lowercase` — a lower case is its own lower case;
* `Comparer.key_key` — a key is its own key.
-/

namespace Parley

open Text

namespace Text

/-! ## The lower-case map -/

/-- Whether no image of a shift is moved by another one. The images are beside the span of the
other shift, or they stand in the gaps of a span that has every second code point. -/
def Shift.misses (s t : Shift) : Bool :=
  Nat.blt (s.target + (s.span.last - s.span.first)) t.span.first ||
    Nat.blt t.span.last s.target ||
    (t.span.step == 2 && (s.span.step == 2 || s.span.first == s.span.last) &&
      (s.target + t.span.first) % 2 == 1)

/-- The lower-case map moves none of its own images. -/
theorem misses_of_mem_lowerShifts :
    (lowerShifts.all fun s => lowerShifts.all s.misses) = true := by
  decide +kernel

theorem target_ne_of_mem_lowerShifts :
    ∀ s ∈ lowerShifts, s.target + (s.span.last - s.span.first) < 'İ'.toNat ∨
      'İ'.toNat < s.target := by
  decide +kernel

/-- The image of a code point is not in the span of a shift that its own shift misses. -/
theorem Shift.has_eq_false_of_misses {s t : Shift} {n : Nat} (h : s.misses t = true)
    (hspan : s.span.has n = true) : t.span.has (s.target + (n - s.span.first)) = false := by
  have hoffset := Span.sub_le_of_has hspan
  rw [Bool.eq_false_iff]
  intro hmoved
  have himage := Span.sub_le_of_has hmoved
  simp only [Shift.misses, Span.has, Bool.or_eq_true, Bool.and_eq_true, Nat.blt_eq, beq_iff_eq,
    decide_eq_true_eq] at h hspan hmoved
  rcases h with (h | h) | ⟨⟨htwo, hgap⟩, hodd⟩
  · omega
  · omega
  · -- an image that has the other parity is in a gap
    have heven : (n - s.span.first) % 2 = 0 := by
      rcases hgap with htwo' | hsingle
      · rw [← htwo']
        exact hspan.2
      · omega
    have hmember := hmoved.2
    rw [htwo] at hmember
    omega

/-- The lower-case map leaves its own images where they are. -/
theorem apply_apply_lowerShifts (n : Nat) :
    Shifts.apply lowerShifts (Shifts.apply lowerShifts n) = Shifts.apply lowerShifts n := by
  rcases Shifts.apply_eq_or lowerShifts n with hstays | ⟨s, hs, hspan, himage⟩
  · rw [hstays, hstays]
  · rw [himage]
    rcases Shifts.apply_eq_or lowerShifts (s.target + (n - s.span.first)) with
      hstays | ⟨t, ht, hmoved, -⟩
    · exact hstays
    · have hmisses := List.all_eq_true.1 (List.all_eq_true.1 misses_of_mem_lowerShifts s hs) t ht
      rw [Shift.has_eq_false_of_misses hmisses hspan] at hmoved
      cases hmoved

/-- A character of a lower case does not change by itself. -/
theorem lowerChar_of_mem_lowerChar {c d : Char} (h : d ∈ lowerChar c) : lowerChar d = [d] := by
  by_cases hc : c = 'İ'
  · -- the dotted capital i becomes a small i with a mark
    subst hc
    have hchars : lowerChar 'İ' = ['i', '\u0307'] := rfl
    rw [hchars, List.mem_cons, List.mem_singleton] at h
    rcases h with rfl | rfl <;> decide
  · have hd := toNat_of_mem_lowerChar hc h
    have hd' : d ≠ 'İ' := by
      rintro rfl
      rcases Shifts.apply_eq_or lowerShifts c.toNat with hstays | ⟨s, hs, hspan, himage⟩
      · exact hc (Char.toNat_inj.1 (hd.trans hstays)).symm
      · have hoffset := Span.sub_le_of_has hspan
        have htarget := target_ne_of_mem_lowerShifts s hs
        omega
    rw [lowerChar, if_neg (by simpa using hd'), hd, apply_apply_lowerShifts, ← hd,
      Char.ofNat_toNat]

/-! ## Lower case of texts -/

/-- No character of a lower case changes by itself. -/
theorem lowerChar_of_mem_lowerAfter {before s : List Char} {d : Char}
    (h : d ∈ lowerAfter before s) : lowerChar d = [d] := by
  induction s generalizing before with
  | nil => simp [lowerAfter] at h
  | cons c rest ih =>
    obtain ⟨image, himage, hcases⟩ := lowerAfter_cons before c rest
    rw [himage, List.mem_append] at h
    rcases h with h | h
    · rcases hcases with rfl | ⟨-, rfl | rfl⟩
      · exact lowerChar_of_mem_lowerChar h
      · obtain rfl := List.mem_singleton.1 h
        decide
      · obtain rfl := List.mem_singleton.1 h
        decide
    · exact ih h

/-- A lower case is its own lower case. -/
theorem lowercase_lowercase (s : String) : lowercase (lowercase s) = lowercase s := by
  have hchars : (lowercase s).toList = lowerAfter [] s.toList := String.toList_ofList
  apply String.toList_injective
  rw [lowercase, String.toList_ofList]
  refine lowerAfter_eq_self ?_ []
  rw [hchars]
  exact fun _ => lowerChar_of_mem_lowerAfter

end Text

/-! ## Keys -/

/-- A key is its own key. -/
@[simp] theorem Comparer.key_key (cmp : Comparer) (s : String) :
    cmp.key (cmp.key s) = cmp.key s := by
  rcases cmp.key_eq_or s with hkey | hkey
  · rw [hkey, hkey]
  · rcases cmp.key_eq_or (cmp.key s) with h | h
    · exact h
    · rw [h, hkey, lowercase_lowercase]

end Parley
