import Parley.Event
import Parley.Segment

/-!
# Templates

A template says how the answer of a category is put together. Its content is a sequence of parts:
text, captures of the match, sub-requests, predicates of the user and variables of the sentence, and
elements that the host has added.
-/

namespace Parley

/-- Where a value is kept under its name. -/
inductive Scope where
  /-- With the user, for good. -/
  | predicate
  /-- With the sentence that is being answered. -/
  | variable
  deriving DecidableEq, Repr

/-- A part of a template. -/
inductive Part where
  | text (s : String)
  /-- What a wildcard or set of a segment has taken, counted from one. -/
  | star (segment : Segment) (index : Nat)
  /-- The answer to the content as a request. -/
  | srai (content : List Part)
  | get (name : String) (scope : Scope)
  /-- Keeps the content under a name, and stands for it. -/
  | set (name : String) (scope : Scope) (content : List Part)
  /-- Evaluates the content and stands for nothing. -/
  | think (content : List Part)
  /-- An element of the host, with its attributes in order. -/
  | extension (name : String) (attributes : List (String × String)) (content : List Part)

/-- The content of a template. -/
abbrev Content := List Part

/-- A template and where it was loaded from. -/
structure Template where
  content : Content
  source? : Option Source := none

namespace Template

/-- A template that always gives the same text. -/
def ofText (s : String) : Template := { content := [.text s] }

end Template

/-- An element of the host as it was read: its name, its attributes in order, and its content. -/
structure HostElement where
  name : String
  attributes : List (String × String)
  content : Content

/-- The value of the first attribute of a name. -/
def HostElement.attribute? (e : HostElement) (name : String) : Option String :=
  e.attributes.lookup name

end Parley
