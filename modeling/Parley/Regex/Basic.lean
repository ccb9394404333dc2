import Parley.Regex.CharSet

/-!
# Regular expressions

Expressions with capture groups, counted and lazy repetitions and zero-width tests. Two measures go
with them: whether a match has to be kept from retracing its own steps (`retraces`), and how many
steps without a character it can take (`weight`).
-/

namespace Parley

/-- Tests of a position that take no character. -/
inductive Regex.Look where
  | textStart
  | textEnd
  /-- The start of a line; with `crlf`, lines end in `\r`, `\n` or `\r\n`. -/
  | lineStart (crlf : Bool)
  | lineEnd (crlf : Bool)
  /-- Between a word character and something else; with `ascii`, words are of ASCII characters. -/
  | wordBoundary (ascii : Bool)
  | notWordBoundary (ascii : Bool)
  | wordStart (ascii : Bool)
  | wordEnd (ascii : Bool)
  /-- No word character before. -/
  | wordStartHalf (ascii : Bool)
  /-- No word character after. -/
  | wordEndHalf (ascii : Bool)
  deriving DecidableEq, Repr

/-- Regular expressions. -/
inductive Regex where
  | empty
  | chars (s : Regex.CharSet)
  | look (l : Regex.Look)
  | cat (a b : Regex)
  /-- The first alternative is preferred. -/
  | alt (a b : Regex)
  /-- A capture group and its number. -/
  | group (index : Nat) (r : Regex)
  /-- At least `min` and at most `max?` times; a greedy repetition prefers to go on. -/
  | repeated (r : Regex) (min : Nat) (max? : Option Nat) (greedy : Bool)
  deriving DecidableEq, Repr

namespace Regex

/-- Whether there is a repetition of more than a single character. Only then can a match come to the
same place in the same part of the expression time and again. -/
def retraces : Regex → Bool
  | .empty => false
  | .chars _ => false
  | .look _ => false
  | .cat a b => a.retraces || b.retraces
  | .alt a b => a.retraces || b.retraces
  | .group _ r => r.retraces
  | .repeated (.chars _) _ _ _ => false
  | .repeated r _ (some 0) _ => r.retraces
  | .repeated r _ (some 1) _ => r.retraces
  | .repeated _ _ _ _ => true

/-- A bound on the number of states that an expression has when repetitions are written out. -/
def weight : Regex → Nat
  | .empty => 1
  | .chars _ => 1
  | .look _ => 1
  | .cat a b => a.weight + b.weight + 1
  | .alt a b => a.weight + b.weight + 1
  | .group _ r => r.weight + 2
  | .repeated r min max? _ => (max min (max?.getD (min + 1)) + 1) * (r.weight + 2)

/-- The highest number of a capture group that can take part in a match; a group inside a
repetition of zero times cannot. -/
def lastGroup : Regex → Nat
  | .empty => 0
  | .chars _ => 0
  | .look _ => 0
  | .cat a b => max a.lastGroup b.lastGroup
  | .alt a b => max a.lastGroup b.lastGroup
  | .group index r => max index r.lastGroup
  | .repeated r _ max? _ => if max? = some 0 then 0 else r.lastGroup

def catAll : List Regex → Regex
  | [] => .empty
  | [r] => r
  | r :: rest => .cat r (catAll rest)

/-- Alternatives, the first preferred. -/
def altAll : List Regex → Regex
  | [] => .empty
  | [r] => r
  | r :: rest => .alt r (altAll rest)

end Regex

end Parley
