import Parley.Text.Case

/-!
# Sets of characters

What one position of an expression accepts: single characters, ranges, named properties, and what
set operations make of them. Membership is decided by evaluating the description, so that a set and
its closure under case need no enumeration. Main results: `mem_caseless_iff`, and `mem_fold` for the
closure under case.
-/

namespace Parley.Regex

open Text

/-- Properties that a set may name. -/
inductive Property where
  | digit
  | blank
  | word
  | alphabetic
  | uppercase
  | lowercase
  | cased
  | caseIgnorable
  | joinControl
  | category (k : GeneralCategory)
  | assigned
  deriving DecidableEq, Repr

def Property.has : Property → Char → Bool
  | .digit, c => isDecimal c
  | .blank, c => isBlank c
  | .word, c => isWordChar c
  | .alphabetic, c => isAlphabetic c
  | .uppercase, c => isUppercase c
  | .lowercase, c => isLowercase c
  | .cased, c => isCased c
  | .caseIgnorable, c => isCaseIgnorable c
  | .joinControl, c => isJoinControl c
  | .category k, c => k.has c
  | .assigned, c => GeneralCategory.anyHas GeneralCategory.all c

/-- A description of a set of characters. -/
inductive CharSet where
  | none
  | char (c : Char)
  /-- One character in any case. -/
  | caseless (c : Char)
  | range (first last : Char)
  | property (p : Property)
  | union (a b : CharSet)
  | inter (a b : CharSet)
  | diff (a b : CharSet)
  | symmDiff (a b : CharSet)
  | compl (a : CharSet)
  /-- The set and every character that differs from a member in case only. -/
  | fold (a : CharSet)
  /-- The same, for the letters of ASCII alone. -/
  | foldAscii (a : CharSet)
  deriving DecidableEq, Repr

/-- The character that a shift takes to a given one, if there is such a character. -/
def shiftPreimage? (s : Shift) (n : Nat) : Option Nat :=
  let candidate := s.span.first + (n - s.target)
  if s.target ≤ n && s.span.has candidate then some candidate else Option.none

/-- The characters that differ from one in case only, itself included. -/
def caseVariants (c : Char) : List Char :=
  foldChar c :: foldShifts.filterMap fun s =>
    (shiftPreimage? s (foldChar c).toNat).map Char.ofNat

/-- The letters of ASCII that differ from a character in case only, and the character itself. -/
def asciiVariants (c : Char) : List Char :=
  [c, c.toLower, c.toUpper]

namespace CharSet

def mem : CharSet → Char → Bool
  | .none, _ => false
  | .char d, c => c == d
  | .caseless d, c => foldChar c == foldChar d
  | .range first last, c => first ≤ c && c ≤ last
  | .property p, c => p.has c
  | .union a b, c => a.mem c || b.mem c
  | .inter a b, c => a.mem c && b.mem c
  | .diff a b, c => a.mem c && !b.mem c
  | .symmDiff a b, c => a.mem c != b.mem c
  | .compl a, c => !a.mem c
  | .fold a, c => (caseVariants c).any a.mem
  | .foldAscii a, c => (asciiVariants c).any a.mem

def unionAll (sets : List CharSet) : CharSet :=
  sets.foldl union none

/-- A letter is accepted in any case exactly if it folds alike. -/
theorem mem_caseless_iff {c d : Char} :
    (caseless d).mem c = true ↔ foldChar c = foldChar d := by
  simp [mem]

/-- The closure under case accepts what has a variant in the set. -/
theorem mem_fold (a : CharSet) (c : Char) :
    (fold a).mem c = true ↔ ∃ d ∈ caseVariants c, a.mem d = true := by
  simp [mem]

end CharSet

end Parley.Regex
