/-!
# Events

What the library reports about its own work, in the order in which it happens. Events are values:
whoever runs the library decides what becomes of them. Each has a level, a message and fields.
-/

namespace Parley

/-- How serious an event is. -/
inductive Level where
  | error
  | warn
  | info
  | debug
  | trace
  deriving DecidableEq, Repr

/-- The value of a field. -/
inductive FieldValue where
  | text (s : String)
  | number (n : Nat)
  deriving DecidableEq, Repr

/-- Where a template was loaded from. -/
structure Source where
  uri : String
  line : Nat
  deriving DecidableEq, Repr

/-- The fields that tell where a template was loaded from, a hyphen and zero if that is unknown. -/
def Source.fields (uriName lineName : String) (source? : Option Source) :
    List (String × FieldValue) :=
  [(uriName, .text ((source?.map Source.uri).getD "-")),
   (lineName, .number ((source?.map Source.line).getD 0))]

/-- What can be reported. -/
inductive Event where
  /-- An expression of a list of substitutions is not valid together with its boundaries. -/
  | skippedSubstitution (pattern : String)
  /-- The expressions of a list of substitutions are not valid together. -/
  | failedSubstitutions
  /-- A search was asked for too deep inside sub-requests. -/
  | recursionLimitExceeded (depth : Nat) (input : String)
  /-- The path that a search works on. -/
  | normalizedPath (path : String)
  /-- A search visits a node. -/
  | searchStep (path : String) (position : Nat)
  /-- The time was up when a search wanted to go on. -/
  | searchTimeout (input : String)
  /-- The time was up when a template wanted to go on. -/
  | templateTimeout (user sentence : String)
  /-- A pattern names a set that there is not. -/
  | missingSet (set path : String)
  /-- A looping element ran too often. -/
  | loopLimitExceeded (user sentence : String)
  | subRequest (depth : Nat) (input : String)
  /-- A user was to learn a path that already has a template, loaded from `source?`. -/
  | duplicateLearned (user path : String) (source? : Option Source)
  /-- A user learned a category. -/
  | learnedByUser (user : String)
  /-- The shared graph learned a category. -/
  | learned (pattern : String)
  /-- The shared graph was to get a template for a path that already has one. -/
  | duplicateCategory (path : String) (source? previous? : Option Source)
  | chatRequest (user request : String)
  | chatResponse (user response : String)
  | noMatch (user input : String)
  /-- A category of the user's own graph matched. -/
  | matchedOwn (path : String)
  /-- A category of the shared graph matched. -/
  | matchedShared (path : String) (source? : Option Source)
  deriving DecidableEq, Repr

namespace Event

def level : Event → Level
  | .skippedSubstitution .. | .failedSubstitutions | .recursionLimitExceeded ..
  | .searchTimeout .. | .templateTimeout .. | .missingSet .. | .loopLimitExceeded ..
  | .duplicateLearned .. | .duplicateCategory .. | .noMatch .. => .warn
  | .chatRequest .. | .chatResponse .. => .info
  | .subRequest .. | .learnedByUser .. | .learned .. | .matchedOwn ..
  | .matchedShared .. => .debug
  | .normalizedPath .. | .searchStep .. => .trace

def message : Event → String
  | .skippedSubstitution .. => "skipping invalid substitution"
  | .failedSubstitutions => "failed to compile substitution list"
  | .recursionLimitExceeded .. => "recursion limit exceeded"
  | .normalizedPath .. => "normalized path"
  | .searchStep .. => "search"
  | .searchTimeout .. => "request timeout"
  | .templateTimeout .. => "request timeout"
  | .missingSet .. => "reference to a missing set"
  | .loopLimitExceeded .. => "loop limit exceeded"
  | .subRequest .. => "sub-request"
  | .duplicateLearned .. => "duplicate learned category"
  | .learnedByUser .. => "learned category"
  | .learned .. => "learned category"
  | .duplicateCategory .. => "duplicate category"
  | .chatRequest .. => "chat request"
  | .chatResponse .. => "chat response"
  | .noMatch .. => "no match"
  | .matchedOwn .. => "matched user category"
  | .matchedShared .. => "matched category"

def fields : Event → List (String × FieldValue)
  | .skippedSubstitution pattern => [("pattern", .text pattern)]
  | .failedSubstitutions => []
  | .recursionLimitExceeded depth input => [("depth", .number depth), ("input", .text input)]
  | .normalizedPath path => [("path", .text path)]
  | .searchStep path position => [("path", .text path), ("pos", .number position)]
  | .searchTimeout input => [("input", .text input)]
  | .templateTimeout user sentence => [("user", .text user), ("sentence", .text sentence)]
  | .missingSet set path => [("set", .text set), ("path", .text path)]
  | .loopLimitExceeded user sentence => [("user", .text user), ("sentence", .text sentence)]
  | .subRequest depth input => [("depth", .number depth), ("input", .text input)]
  | .duplicateLearned user path source? =>
    [("user", .text user), ("path", .text path)] ++ Source.fields "uri" "line" source?
  | .learnedByUser user => [("user", .text user)]
  | .learned pattern => [("pattern", .text pattern)]
  | .duplicateCategory path source? previous? =>
    ("path", .text path) ::
      (Source.fields "uri" "line" source? ++
        Source.fields "previous_uri" "previous_line" previous?)
  | .chatRequest user request => [("user", .text user), ("request", .text request)]
  | .chatResponse user response => [("user", .text user), ("response", .text response)]
  | .noMatch user input => [("user", .text user), ("input", .text input)]
  | .matchedOwn path => [("path", .text path)]
  | .matchedShared path source? => ("path", .text path) :: Source.fields "uri" "line" source?

/-- Whether an event is only there because it was asked for by a trace switch. -/
def isDiagnostic (e : Event) : Bool := e.level == .trace

end Event

end Parley
