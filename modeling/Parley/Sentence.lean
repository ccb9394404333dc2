import Parley.Text.Words

/-!
# Sentences

A text is cut into sentences at its marks (`.`, `!`, `?`, `;` unless configured otherwise). A mark
ends a sentence only where a blank, a tag or the end of the text follows it, so that `3.50` stays in
one piece. Main results:

* `pieces_ne_nil` — there is always a last piece, the one after the last mark;
* `pieces_nil` — without marks, there is no other.
-/

namespace Parley

open Text

namespace Sentence

/-- Whether a mark in front of `rest` ends its sentence. -/
def endsBefore : List Char → Bool
  | [] => true
  | c :: _ => isBlank c || c == '<'

/-- Puts a character in front of the first piece. -/
def consFirst (c : Char) : List (List Char) → List (List Char)
  | [] => [[c]]
  | p :: ps => (c :: p) :: ps

/-- The text cut after every mark that ends a sentence; the mark stays with its piece if `keep` is
set. The last piece is what follows the last such mark. -/
def pieces (marks : List Char) (keep : Bool) : List Char → List (List Char)
  | [] => [[]]
  | c :: rest =>
    if marks.contains c && endsBefore rest then
      (if keep then [c] else []) :: pieces marks keep rest
    else consFirst c (pieces marks keep rest)

end Sentence

/-- The sentences of a text: its pieces, trimmed, without those that are blank. Without any marks
the text is one sentence. -/
def splitSentences (marks : List Char) (keep : Bool) (text : String) : List String :=
  (((Sentence.pieces marks keep text.toList).map strip).filter fun p => !p.isEmpty).map
    String.ofList

namespace Sentence

/-- There is always a last piece. -/
theorem pieces_ne_nil (marks : List Char) (keep : Bool) (s : List Char) :
    pieces marks keep s ≠ [] := by
  cases s with
  | nil => simp [pieces]
  | cons c rest =>
    rw [pieces]
    split
    · simp
    · cases pieces marks keep rest <;> simp [consFirst]

/-- Without marks the text stays in one piece. -/
theorem pieces_nil (keep : Bool) (s : List Char) : pieces [] keep s = [s] := by
  induction s with
  | nil => rfl
  | cons c rest ih => simp [pieces, ih, consFirst]

end Sentence

end Parley
