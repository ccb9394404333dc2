import Parley.Abort

/-!
# Replies

What a user gets for a request: the text, the answers to its sentences, and for each sentence how it
was answered.
-/

namespace Parley

/-- Which graph a match is from. -/
inductive Origin where
  | own
  /-- The one that all users share. -/
  | shared
  deriving DecidableEq, Repr

/-- How a sentence was answered. -/
structure Details where
  /-- The sentence as it was matched. -/
  input : String
  /-- The whole input that the search saw. -/
  normalizedPath : String
  /-- The path of the category that answered. -/
  matchedPath? : Option String
  origin? : Option Origin
  outcome : Outcome
  deriving DecidableEq, Repr

/-- What a user gets for a request. -/
structure Reply where
  /-- The answers to the sentences, joined by spaces. -/
  text : String
  /-- The answers that are not empty. -/
  sentences : List String := []
  /-- One entry for each sentence of the request. -/
  details : List Details := []
  deriving DecidableEq, Repr

end Parley
