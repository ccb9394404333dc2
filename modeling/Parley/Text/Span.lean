/-!
# Spans of code points

Sets of characters that a standard lists are kept as spans in ascending order. A span has a step, so
that alphabets in which capital and small letters alternate need one span and not one per letter.
Main statement: `Spans.has_iff` — for lists in ascending order, the search, which stops at the first
span that starts too late, finds exactly the members of the spans.
-/

namespace Parley.Text

/-- Every `step`-th code point from `first` to `last`. -/
structure Span where
  first : Nat
  last : Nat
  step : Nat
  deriving DecidableEq, Repr

/-- Whether a code point is one of the span's. -/
def Span.has (s : Span) (n : Nat) : Bool :=
  s.first ≤ n && n ≤ s.last && (n - s.first) % s.step == 0

/-- Spans in ascending order of their first code points. -/
def Spans.Ascending (spans : List Span) : Prop :=
  spans.Pairwise fun a b => a.first ≤ b.first

instance (spans : List Span) : Decidable (Spans.Ascending spans) :=
  inferInstanceAs (Decidable (List.Pairwise _ _))

/-- Whether one of the spans, which are in ascending order, has a code point. -/
def Spans.has : List Span → Nat → Bool
  | [], _ => false
  | s :: rest, n => if n < s.first then false else s.has n || Spans.has rest n

/-- No span that starts after a code point has it. -/
theorem Span.has_eq_false_of_lt {s : Span} {n : Nat} (h : n < s.first) : s.has n = false := by
  simp [Span.has, Nat.not_le_of_lt h]

/-- On ascending spans the search finds exactly the code points that some span has. -/
theorem Spans.has_iff {spans : List Span} (h : Spans.Ascending spans) (n : Nat) :
    Spans.has spans n = true ↔ ∃ s ∈ spans, s.has n = true := by
  induction spans with
  | nil => simp [Spans.has]
  | cons s rest ih =>
    obtain ⟨hs, hrest⟩ := List.pairwise_cons.1 h
    by_cases hlt : n < s.first
    · have hnone : ∀ t ∈ s :: rest, t.has n = false := by
        intro t ht
        rcases List.mem_cons.1 ht with rfl | ht
        · exact Span.has_eq_false_of_lt hlt
        · exact Span.has_eq_false_of_lt (Nat.lt_of_lt_of_le hlt (hs t ht))
      have hnot : ¬ ∃ t ∈ s :: rest, t.has n = true := by
        rintro ⟨t, ht, htn⟩
        simp [hnone t ht] at htn
      simp only [Spans.has, if_pos hlt]
      exact ⟨fun hf => absurd hf (by simp), fun he => absurd he hnot⟩
    · simp [Spans.has, hlt, ih hrest]

end Parley.Text
