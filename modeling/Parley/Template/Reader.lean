import Parley.Extension
import Parley.Markup.Tag

/-!
# Reading templates

The markup of a template is text with well-nested elements in it: every closing tag closes the
innermost open element, and no element is open at the end. Elements are built in or added by the
host. Main result: `readPieces_nil_nil`, text without tags is read as itself.
-/

namespace Parley

open Text Markup

namespace Template

/-! ## Building parts -/

/-- The number of a capture, one unless it is given. -/
def readIndex (element : String) (attributes : List (String × String)) : Except Fault Nat :=
  match attributes.lookup "index" with
  | none => .ok 1
  | some value =>
    match readNumber? (trim value) with
    | some (n + 1) => .ok (n + 1)
    | _ => .error (.invalidIndex element value)

/-- The name under which a value is kept: that of a predicate, or else that of a variable. -/
def readTarget (element : String) (attributes : List (String × String)) :
    Except Fault (String × Scope) :=
  match attributes.lookup "name", attributes.lookup "var" with
  | some name, _ => .ok (name, .predicate)
  | none, some name => .ok (name, .variable)
  | none, none => .error (.missingAttribute element "name")

/-- The part that an element stands for. -/
def buildPart (registry : Registry) (name : String) (attributes : List (String × String))
    (content : Content) : Except Fault Part :=
  match name with
  | "star" => (readIndex name attributes).map (.star .message)
  | "thatstar" => (readIndex name attributes).map (.star .that)
  | "topicstar" => (readIndex name attributes).map (.star .topic)
  | "sr" => .ok (.srai [.star .message 1])
  | "srai" => .ok (.srai content)
  | "think" => .ok (.think content)
  | "get" => (readTarget name attributes).map fun (name, scope) => .get name scope
  | "set" => (readTarget name attributes).map fun (name, scope) => .set name scope content
  | _ =>
    match registry.get? name with
    | none => .error (.invalidElement name .template)
    | some extension =>
      (extension.accept { name, attributes, content }).map fun _ =>
        .extension name attributes content

/-! ## Nesting -/

/-- An element that is open: its name and attributes, and what stands before it in the content that
it belongs to. -/
structure OpenElement where
  name : String
  attributes : List (String × String)
  before : Content

/-- Text as content; there are no empty texts. -/
def textParts (text : List Char) : Content :=
  if text.isEmpty then [] else [.text (String.ofList text)]

/-- Reads markup that is cut at its tags. `outer` are the open elements, the innermost first, and
`content` is what the innermost one holds so far. -/
def readPieces (registry : Registry) :
    (outer : List OpenElement) → (content : Content) → List (List Char × Tag) → List Char →
      Except Fault Content
  | [], content, [], last => .ok (content ++ textParts last)
  | element :: _, _, [], _ => .error (.unterminated element.name)
  | outer, content, (text, tag) :: more, last =>
    let content := content ++ textParts text
    if tag.closing then
      match outer with
      | [] => .error (.unexpectedClose tag.name)
      | element :: outer =>
        if element.name == tag.name then
          match buildPart registry element.name element.attributes content with
          | .error fault => .error fault
          | .ok part => readPieces registry outer (element.before ++ [part]) more last
        else .error (.unexpectedClose tag.name)
    else if tag.selfClosing then
      match buildPart registry tag.name tag.attributes [] with
      | .error fault => .error fault
      | .ok part => readPieces registry outer (content ++ [part]) more last
    else
      readPieces registry
        ({ name := tag.name, attributes := tag.attributes, before := content } :: outer) [] more
        last

/-- Reads the markup of a template's content. -/
def parseContent (registry : Registry) (markup : String) : Except Fault Content :=
  let pieces := cutAtTags markup.toList
  readPieces registry [] [] pieces.tagged pieces.last

/-- Reads the markup of a template. -/
def parse (registry : Registry) (markup : String) : Except Fault Template :=
  (parseContent registry markup).map fun content => { content }

/-- Text without tags is read as itself. -/
theorem readPieces_nil_nil (registry : Registry) (last : List Char) :
    readPieces registry [] [] [] last = .ok (textParts last) := rfl

end Template

end Parley
