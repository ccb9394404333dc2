import Parley.Markup.Fault
import Parley.Markup.Tag
import Parley.Token

/-!
# Patterns

The markup of a pattern holds words, references to properties of the bot (`<bot name="..."/>`) and
references to sets of phrases (`<set>name</set>`). Neither kind of element nests.
-/

namespace Parley

open Text Markup

/-- A part of a pattern. -/
inductive PatternItem where
  /-- A word or the symbol of a wildcard. -/
  | word (text : String)
  /-- The words of a property of the bot. -/
  | property (name : String)
  /-- A phrase of a named set. -/
  | set (name : String)
  deriving DecidableEq, Repr

/-- The content of a pattern. -/
abbrev Pattern := List PatternItem

namespace Pattern

/-- The element that is open while a pattern is read. -/
inductive Open where
  | nothing
  /-- A set reference. -/
  | set
  /-- A property reference that was not closed at once. -/
  | property
  deriving DecidableEq, Repr

/-- The words of a piece of text as items. -/
def wordItems (text : List Char) : List PatternItem :=
  (breakWords text).map fun w => .word (String.ofList w)

/-- What a tag and the text in front of it mean while an element is open or none is: the items they
give, and what is open afterwards. -/
def readTag (openElement : Open) (text : List Char) (tag : Tag) :
    Except Fault (List PatternItem × Open) :=
  match openElement with
  | .set =>
    if tag.closing && tag.name == "set" then
      .ok ([.set (String.ofList (strip text))], .nothing)
    else .error (.invalidElement tag.name .set)
  | .property =>
    if tag.closing && tag.name == "bot" && text.all isBlank then .ok ([], .nothing)
    else .error (.invalidElement tag.name .bot)
  | .nothing =>
    if tag.closing then
      if tag.name == "bot" || tag.name == "set" then .error (.unexpectedClose tag.name)
      else .error (.invalidElement tag.name .pattern)
    else if tag.name == "bot" then
      match tag.attribute? "name" with
      | none => .error (.missingAttribute "bot" "name")
      | some name =>
        .ok (wordItems text ++ [.property name], if tag.selfClosing then .nothing else .property)
    else if tag.name == "set" && !tag.selfClosing then .ok (wordItems text, .set)
    else .error (.invalidElement tag.name .pattern)

/-- Reads a pattern cut at its tags. -/
def ofPieces : Open → List (List Char × Tag) → List Char → Except Fault Pattern
  | .set, [], _ => .error (.unterminated "set")
  | .property, [], _ => .error (.unterminated "bot")
  | .nothing, [], last => .ok (wordItems last)
  | openElement, (text, tag) :: more, last => do
    let (items, openElement) ← readTag openElement text tag
    return items ++ (← ofPieces openElement more last)

/-- Reads the markup of a pattern. -/
def parse (markup : String) : Except Fault Pattern :=
  let pieces := cutAtTags markup.toList
  ofPieces .nothing pieces.tagged pieces.last

end Pattern

end Parley
