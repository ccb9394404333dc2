import Parley.Comparer
import Parley.Text.Words

/-!
# Path tokens

A category is stored under a path of tokens. A token is a word, a word that is tried before all
wildcards, one of four wildcards, or a reference to a named set of phrases. Every token but a set
reference is known by its text; the text decides what kind of token it is.

Main results: `text_ofText`, a token that was read from a text has that text; `isSet_ofText`, it is
never a set reference.
-/

namespace Parley

/-- The wildcards. Two of them are tried before literal words. -/
inductive Wildcard where
  /-- `*`: one or more words. -/
  | oneOrMore
  /-- `^`: any number of words. -/
  | zeroOrMore
  /-- `_`: one or more words, before literal words. -/
  | priorityOneOrMore
  /-- `#`: any number of words, before literal words. -/
  | priorityZeroOrMore
  deriving DecidableEq, Repr

namespace Wildcard

/-- How a wildcard is written. -/
def symbol : Wildcard → String
  | .oneOrMore => "*"
  | .zeroOrMore => "^"
  | .priorityOneOrMore => "_"
  | .priorityZeroOrMore => "#"

/-- The least number of words that a wildcard takes. -/
def minWords : Wildcard → Nat
  | .oneOrMore => 1
  | .zeroOrMore => 0
  | .priorityOneOrMore => 1
  | .priorityZeroOrMore => 0

/-- The wildcard that a text is the symbol of. -/
def ofSymbol? : String → Option Wildcard
  | "*" => some .oneOrMore
  | "^" => some .zeroOrMore
  | "_" => some .priorityOneOrMore
  | "#" => some .priorityZeroOrMore
  | _ => none

@[simp] theorem ofSymbol?_symbol (w : Wildcard) : ofSymbol? w.symbol = some w := by
  cases w <;> rfl

/-- Only its symbol stands for a wildcard. -/
theorem symbol_of_ofSymbol? {s : String} {w : Wildcard} (h : ofSymbol? s = some w) :
    w.symbol = s := by
  unfold ofSymbol? at h
  split at h <;> simp_all <;> subst h <;> rfl

end Wildcard

/-- One step of a category's path. -/
inductive Token where
  /-- A word that stands for itself. -/
  | word (text : String)
  /-- A word that is tried before all wildcards; it is written with a dollar sign. -/
  | priority (word : String)
  | wildcard (w : Wildcard)
  /-- A phrase of a named set. -/
  | set (name : String)
  deriving DecidableEq, Repr

namespace Token

/-- The word between the pattern for the message and the one for what was said last. -/
def thatSeparator : String := "<that>"

/-- The word between the pattern for what was said last and the one for the topic. -/
def topicSeparator : String := "<topic>"

/-- The text of a token: its word, its symbol, or the name of its set. -/
def text : Token → String
  | .word w => w
  | .priority w => "$" ++ w
  | .wildcard w => w.symbol
  | .set name => name

/-- The token that a text stands for: a wildcard, a preferred word, or a word. -/
def ofText (text : String) : Token :=
  match Wildcard.ofSymbol? text with
  | some w => .wildcard w
  | none =>
    match text.toList with
    | '$' :: c :: cs => .priority (String.ofList (c :: cs))
    | _ => .word text

/-- How a set reference is written. -/
def setLabel (name : String) : String := "<set>" ++ name ++ "</set>"

/-- How a token is written in a path. -/
def display : Token → String
  | .word w => w
  | .priority w => "$" ++ w
  | .wildcard w => w.symbol
  | .set name => setLabel name

/-- Whether a token refers to a set. -/
def isSet : Token → Bool
  | .set _ => true
  | _ => false

/-- The least number of words that a token takes, if it is a wildcard. -/
def minWords? : Token → Option Nat
  | .wildcard w => some w.minWords
  | _ => none

/-- Whether two tokens are the same under a comparer: set references by the name of the set, all
others by their text. -/
def matchesUnder (cmp : Comparer) (a b : Token) : Bool :=
  a.isSet == b.isSet && cmp.equals a.text b.text

/-- A token is known by its text. -/
theorem text_ofText (text : String) : (ofText text).text = text := by
  unfold ofText
  split
  · next w h => exact Wildcard.symbol_of_ofSymbol? h
  · split
    · next c cs h =>
      rw [Token.text]
      apply String.toList_injective
      simp [h]
    · rfl

/-- What a text stands for is never a set reference. -/
@[simp] theorem isSet_ofText (text : String) : (ofText text).isSet = false := by
  unfold ofText
  split
  · rfl
  · split <;> rfl

@[simp] theorem matchesUnder_self (cmp : Comparer) (t : Token) : matchesUnder cmp t t = true := by
  simp [matchesUnder]

end Token

/-- A path as text. -/
def renderPath (path : List Token) : String :=
  Text.unwords (path.map Token.display)

end Parley
