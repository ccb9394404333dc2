import Parley.Regex.Basic

/-!
# Matching

A match of an expression at a place of a text is found by going through the alternatives in order of
preference; the first way to the end of the expression is the match. What is still to be matched is
a list of tasks. A list of tasks that was already taken up at the same place is not taken up again:
it has led nowhere, or is the beginning of a round that takes no character.

Main result: `replaceAll_of_allMatches_eq_nil`, a text in which nothing matches stays as it is.
-/

namespace Parley.Regex

open Text

/-! ## Places -/

/-- A place between two characters of a text. -/
structure Place where
  /-- The character before the place. -/
  before : Option Char := none
  rest : List Char
  index : Nat := 0
  deriving DecidableEq, Repr

namespace Place

def ofText (text : List Char) : Place := { rest := text }

/-- The place after the next character, if there is one. -/
def advance? (p : Place) : Option Place :=
  match p.rest with
  | [] => none
  | c :: rest => some { before := some c, rest, index := p.index + 1 }

/-- The place `n` characters further on, or the end of the text if that is nearer. -/
def advance (p : Place) : Nat → Place
  | 0 => p
  | n + 1 =>
    match p.rest with
    | [] => p
    | c :: rest => advance { before := some c, rest, index := p.index + 1 } n

end Place

/-- Whether a character counts for word boundaries. -/
def isBoundaryWordChar (ascii : Bool) (c : Char) : Bool :=
  if ascii then c.isAlphanum || c == '_' else isWordChar c

namespace Look

/-- Whether a place passes a test. -/
def holds (l : Look) (p : Place) : Bool :=
  let wordBefore (ascii : Bool) := p.before.any (isBoundaryWordChar ascii)
  let wordAfter (ascii : Bool) := p.rest.head?.any (isBoundaryWordChar ascii)
  match l with
  | .textStart => p.before.isNone
  | .textEnd => p.rest.isEmpty
  | .lineStart false => p.before.all (· == '\n')
  | .lineStart true =>
    p.before.all fun c => c == '\n' || (c == '\r' && p.rest.head? != some '\n')
  | .lineEnd false => p.rest.head?.all (· == '\n')
  | .lineEnd true =>
    p.rest.head?.all fun c => c == '\r' || (c == '\n' && p.before != some '\r')
  | .wordBoundary ascii => wordBefore ascii != wordAfter ascii
  | .notWordBoundary ascii => wordBefore ascii == wordAfter ascii
  | .wordStart ascii => !wordBefore ascii && wordAfter ascii
  | .wordEnd ascii => wordBefore ascii && !wordAfter ascii
  | .wordStartHalf ascii => !wordBefore ascii
  | .wordEndHalf ascii => !wordAfter ascii

end Look

/-! ## Tasks -/

/-- What is still to be done on the way to the end of an expression. -/
inductive Task where
  /-- Match an expression. -/
  | run (r : Regex)
  /-- Match one more round of a repetition, or leave it. -/
  | again (r : Regex) (greedy : Bool)
  /-- Note that a capture group ends here. -/
  | close (group : Nat)
  deriving DecidableEq, Repr

/-- Where capture groups started and ended, the latest note first: group `g` has its start under
`2 * g` and its end under `2 * g + 1`. -/
abbrev Notes := List (Nat × Nat)

/-- The end of a way through an expression: where it ended and what was noted. -/
structure Outcome where
  place : Place
  notes : Notes
  deriving DecidableEq, Repr

/-- The lists of tasks that were taken up so far, each with the index of the place. -/
abbrev Tried := List (Nat × List Task)

/-- The first way through the tasks, in order of preference, or else what was tried without success.
With `guarded`, no list of tasks is taken up twice at the same place. -/
def explore (guarded : Bool) : (fuel : Nat) → List Task → Tried → Place → Notes →
    Except Tried Outcome
  | 0, _, tried, _, _ => .error tried
  | _ + 1, [], _, place, notes => .ok ⟨place, notes⟩
  | fuel + 1, task :: k, tried, place, notes =>
    if guarded && tried.contains (place.index, task :: k) then .error tried
    else
      let tried := if guarded then (place.index, task :: k) :: tried else tried
      let either (first second : List Task) :=
        match explore guarded fuel first tried place notes with
        | .ok found => .ok found
        | .error tried => explore guarded fuel second tried place notes
      match task with
      | .close g => explore guarded fuel k tried place ((2 * g + 1, place.index) :: notes)
      | .again r true => either (.run r :: .again r true :: k) k
      | .again r false => either k (.run r :: .again r false :: k)
      | .run .empty => explore guarded fuel k tried place notes
      | .run (.chars s) =>
        match place.rest with
        | [] => .error tried
        | c :: rest =>
          if s.mem c then
            explore guarded fuel k tried { before := some c, rest, index := place.index + 1 } notes
          else .error tried
      | .run (.look l) =>
        if l.holds place then explore guarded fuel k tried place notes else .error tried
      | .run (.cat a b) => explore guarded fuel (.run a :: .run b :: k) tried place notes
      | .run (.alt a b) => either (.run a :: k) (.run b :: k)
      | .run (.group g r) =>
        explore guarded fuel (.run r :: .close g :: k) tried place ((2 * g, place.index) :: notes)
      | .run (.repeated r 0 none true) => either (.run r :: .again r true :: k) k
      | .run (.repeated r 0 none false) => either k (.run r :: .again r false :: k)
      | .run (.repeated _ 0 (some 0) _) => explore guarded fuel k tried place notes
      | .run (.repeated r 0 (some (m + 1)) true) =>
        either (.run r :: .run (.repeated r 0 (some m) true) :: k) k
      | .run (.repeated r 0 (some (m + 1)) false) =>
        either k (.run r :: .run (.repeated r 0 (some m) false) :: k)
      | .run (.repeated r 1 none greedy) =>
        explore guarded fuel (.run r :: .again r greedy :: k) tried place notes
      | .run (.repeated r (n + 1) max? greedy) =>
        explore guarded fuel (.run r :: .run (.repeated r n (max?.map (· - 1)) greedy) :: k) tried
          place notes

/-! ## Matches -/

/-- A match: the place where it starts, the place where it ends, and what was noted on the way. -/
structure Match where
  start : Place
  stop : Place
  notes : Notes
  deriving DecidableEq, Repr

/-- The preferred match at a place. Between two characters no list of tasks comes twice, so the
number of states of the expression bounds the steps there. -/
def matchAt (r : Regex) (p : Place) : Option Match :=
  match explore r.retraces ((p.rest.length + 1) * (r.weight + 2)) [.run r] [] p [] with
  | .ok o => some { start := p, stop := o.place, notes := o.notes }
  | .error _ => none

namespace Match

def isEmpty (m : Match) : Bool := m.start.index == m.stop.index

def text (m : Match) : List Char :=
  m.start.rest.take (m.stop.index - m.start.index)

/-- The text that a capture group took, if the group took part. -/
def group? (m : Match) (g : Nat) : Option (List Char) :=
  match m.notes.lookup (2 * g), m.notes.lookup (2 * g + 1) with
  | some first, some last =>
    some ((m.start.rest.drop (first - m.start.index)).take (last - first))
  | _, _ => none

/-- The same, with the whole match under the number zero. -/
def capture? (m : Match) (g : Nat) : Option (List Char) :=
  if g = 0 then some m.text else m.group? g

end Match

/-- The matches from a place on, from left to right and without overlap. A match that takes nothing
is not counted where the match before it ended (`fresh` is not set there). -/
def matchesFrom (r : Regex) : (fuel : Nat) → (fresh : Bool) → Place → List Match
  | 0, _, _ => []
  | fuel + 1, fresh, p =>
    match matchAt r p with
    | some m =>
      if fresh || !m.isEmpty then m :: matchesFrom r fuel false m.stop
      else
        match p.advance? with
        | some q => matchesFrom r fuel true q
        | none => []
    | none =>
      match p.advance? with
      | some q => matchesFrom r fuel true q
      | none => []

/-- All matches in a text, from left to right and without overlap. -/
def allMatches (r : Regex) (text : List Char) : List Match :=
  matchesFrom r (2 * text.length + 2) true (Place.ofText text)

/-- A text from a place on, with each of the matches there replaced. -/
def replaceMatches (replacement : Match → List Char) : Place → List Match → List Char
  | p, [] => p.rest
  | p, m :: ms =>
    p.rest.take (m.start.index - p.index) ++ replacement m ++ replaceMatches replacement m.stop ms

/-- A text with every match of an expression replaced. -/
def replaceAll (r : Regex) (replacement : Match → List Char) (text : List Char) : List Char :=
  replaceMatches replacement (Place.ofText text) (r.allMatches text)

/-- Without a match a text stays as it is. -/
theorem replaceAll_of_allMatches_eq_nil {r : Regex} {text : List Char}
    (h : r.allMatches text = []) (replacement : Match → List Char) :
    r.replaceAll replacement text = text := by
  simp [replaceAll, h, replaceMatches, Place.ofText]

end Parley.Regex
