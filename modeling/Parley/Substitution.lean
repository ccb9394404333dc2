import Parley.Event
import Parley.Regex.Match
import Parley.Regex.Reader
import Parley.Text.Words

/-!
# Substitutions

Before a sentence is matched, parts of it are replaced: abbreviations by what they stand for, other
spellings by the usual one. All substitutions of a list are applied in one pass from left to right,
as the alternatives of one expression without regard to case, so that a replacement is never
replaced again. A blank at an end of a pattern asks for a word boundary there.

Main results: `apply_none`, a list without items changes nothing; `unwords_words_apply`, with items
the result is its own words joined by single spaces.
-/

namespace Parley

open Text

/-- How the pattern of a substitution is to be read. -/
inductive PatternKind where
  /-- It stands for itself. -/
  | literal
  /-- It is a regular expression, and the replacement may refer to its groups. -/
  | expression
  deriving DecidableEq, Repr

/-- What is to be replaced by what. -/
structure Substitution where
  pattern : String
  replacement : String
  kind : PatternKind
  deriving DecidableEq, Repr

namespace Substitution

/-- A substitution whose pattern stands for itself. -/
def literal (pattern replacement : String) : Substitution :=
  { pattern, replacement, kind := .literal }

/-- A substitution whose pattern is a regular expression, if it is a valid one. -/
def expression? (pattern replacement : String) : Option Substitution :=
  (Regex.read? (strip pattern.toList)).map fun _ =>
    { pattern, replacement, kind := .expression }

/-- The expression of a substitution, without the blanks around it. Between words there may be any
number of spaces. -/
def body (s : Substitution) : List Char :=
  let inner := strip s.pattern.toList
  let inner := match s.kind with
    | .literal => Regex.escape inner
    | .expression => inner
  inner.flatMap fun c => if c == ' ' then [' ', '+'] else [c]

/-- The expression of a substitution, with a space at each end where the pattern has one. -/
def source (s : Substitution) : List Char :=
  let start := if s.pattern.toList.head? == some ' ' then [' '] else []
  let stop := if s.pattern.toList.getLast? == some ' ' then [' '] else []
  start ++ s.body ++ stop

end Substitution

/-! ## Lists of substitutions -/

/-- One substitution of a prepared list and the number of the group around its alternative. -/
structure Alternative where
  item : Substitution
  group : Nat
  deriving DecidableEq, Repr

/-- The number that a group of an item has in the whole expression, where the group around the item
has the number zero. It is added up in a machine word. -/
def Alternative.slot (a : Alternative) (n : Nat) : Nat := (a.group + n) % UInt64.size

/-- A list of substitutions as one expression. -/
structure Program where
  regex : Regex
  alternatives : List Alternative
  deriving DecidableEq, Repr

/-- What comes of preparing a list: the expression, if there is one, and what there is to report. -/
structure Preparation where
  program? : Option Program
  events : List Event
  deriving DecidableEq, Repr

namespace Substitution

/-- The items that are valid expressions, each with the number of its group: every alternative has a
group around it and the groups of its own inside. -/
def number (next : Nat) : List Substitution → List Alternative
  | [] => []
  | s :: rest =>
    match Regex.read? s.source with
    | some r => { item := s, group := next } :: number (next + 1 + r.lastGroup) rest
    | none => number next rest

/-- The items that are not valid expressions with their boundaries. -/
def invalid (items : List Substitution) : List Substitution :=
  items.filter fun s => (Regex.read? s.source).isNone

/-- The alternatives as one expression, which ignores case. -/
def joinedSource (alternatives : List Alternative) : List Char :=
  "(?i)".toList ++
    List.intercalate ['|'] (alternatives.map fun a => '(' :: a.item.source ++ [')'])

/-- Prepares a list. -/
def prepare (items : List Substitution) : Preparation :=
  let alternatives := number 1 items
  let skipped := (invalid items).map fun s => Event.skippedSubstitution s.pattern
  match Regex.read? (joinedSource alternatives) with
  | some regex => { program? := some { regex, alternatives }, events := skipped }
  | none => { program? := none, events := skipped ++ [.failedSubstitutions] }

end Substitution

/-- A list of substitutions, prepared. -/
structure Substitutions where
  items : List Substitution
  prepared : Preparation := Substitution.prepare items
  prepared_eq : prepared = Substitution.prepare items := by rfl

/-! ## References to groups -/

/-- The number that digits stand for. Only digits of ASCII form numbers, and only numbers below
2 ^ 64 are read; all else refers to group zero. -/
def referenceNumber (digits : List Char) : Nat :=
  if digits.all Char.isDigit && Regex.numberOf 10 digits < UInt64.size then Regex.numberOf 10 digits
  else 0

/-- A replacement with its references filled in: a dollar sign and the digits behind it, as many as
there are, stand for what `group` gives for their number. `pending` are the digits read since a
dollar sign, the last first. -/
def expandReferences (group : Nat → List Char) (pending : Option (List Char)) :
    List Char → List Char
  | [] => flush pending
  | c :: rest =>
    match pending with
    | none =>
      if c == '$' then expandReferences group (some []) rest
      else c :: expandReferences group none rest
    | some digits =>
      if isDecimal c then expandReferences group (some (c :: digits)) rest
      else if c == '$' then flush (some digits) ++ expandReferences group (some []) rest
      else flush (some digits) ++ c :: expandReferences group none rest
where
  /-- The text for a dollar sign and the digits behind it. -/
  flush : Option (List Char) → List Char
    | none => []
    | some [] => ['$']
    | some (d :: ds) => group (referenceNumber (d :: ds).reverse)

/-! ## Applying -/

namespace Program

/-- What a match is replaced by: the replacement of the first alternative that took part, with its
references filled in, and with the boundary spaces that the match has taken. -/
def replacement (p : Program) (m : Regex.Match) : List Char :=
  match p.alternatives.find? fun a => (m.group? a.group).isSome with
  | none => []
  | some a =>
    let text := a.item.replacement.toList
    let text := match a.item.kind with
      | .literal => text
      | .expression =>
        expandReferences (fun n => (m.capture? (a.slot n)).getD []) none text
    let whole := (m.group? a.group).getD []
    let text := if whole.head? == some ' ' && text.head? != some ' ' then ' ' :: text else text
    if whole.getLast? == some ' ' && text.getLast? != some ' ' then text ++ [' '] else text

end Program

namespace Substitutions

/-- A prepared list of the given items. -/
def ofList (items : List Substitution) : Substitutions := { items }

/-- A list without items. -/
def none : Substitutions := ofList []

/-- The words of a text with two spaces between neighbours and one at each end: two neighbouring
words can then both have their boundary spaces. -/
def workingText (ws : List (List Char)) : List Char :=
  ' ' :: List.intercalate [' ', ' '] ws ++ [' ']

/-- A text after one pass of the substitutions. -/
def apply (list : Substitutions) (text : String) : String :=
  match list.items, list.prepared.program? with
  | [], _ => text
  | _, Option.none => text
  | _, some program =>
    let work := workingText (breakWords text.toList)
    let replaced := program.regex.replaceAll program.replacement work
    String.ofList (joinWords (breakWords replaced))

/-- What the first use of a list reports. -/
def events (list : Substitutions) : List Event :=
  if list.items.isEmpty then [] else list.prepared.events

/-- A list without items changes nothing. -/
@[simp] theorem apply_none (text : String) : Substitutions.none.apply text = text := rfl

/-- A list that can be used makes its results single-spaced: they are their own words joined by
single spaces. -/
theorem unwords_words_apply {list : Substitutions} {program : Program}
    (hitems : list.items ≠ []) (hprogram : list.prepared.program? = some program)
    (text : String) : unwords (words (list.apply text)) = list.apply text := by
  unfold apply
  split
  · next h => exact absurd h hitems
  · next h _ => simp [hprogram] at h
  · next p _ h =>
    dsimp only
    generalize p.regex.replaceAll p.replacement _ = replaced
    have hwords : ∀ w ∈ breakWords replaced, w ≠ [] ∧ ∀ c ∈ w, isBlank c = false :=
      fun w hw => ⟨ne_nil_of_mem_breakWords hw, fun c hc => not_isBlank_of_mem_breakWords hw hc⟩
    simp [words, unwords, breakWords_joinWords hwords]

end Substitutions

/-- A sentence ready for matching: substituted, and without the marks and blanks at its end. -/
def normalize (list : Substitutions) (marks : List Char) (text : String) : String :=
  String.ofList
    (dropEndWhile (fun c => marks.contains c || isBlank c) (list.apply text).toList)

end Parley
