import Parley.Category
import Parley.Markup.Fault
import Parley.Search
import Parley.Text.Number
import Parley.Text.Quoted
import Parley.User

/-!
# Elements of the host

A host may add elements to the language of templates. For each it says which uses are well-formed
and what the element does when a template is evaluated. What it does is a script: a sequence of
commands, each of which may depend on what the commands before it gave. A script cannot catch an
abort, so every abort that a command causes ends the evaluation.

Main results:

* `Registry.register_eq_error_iff` — a registration fails exactly for the names that are taken;
* `Registry.get?_of_register_eq_ok` — it is found under its name and changes no other look-up.
-/

namespace Parley

open Text Markup

/-! ## Scripts -/

/-- Who is to learn a category. -/
inductive Learner where
  /-- All users. -/
  | everyone
  /-- The user that is being answered. -/
  | user
  deriving DecidableEq, Repr

/-- What an element can see while it is evaluated. -/
structure View where
  /-- The sentence that is being answered. -/
  sentence : String
  /-- How deep inside sub-requests it is answered. -/
  depth : Nat
  /-- The path of the category that answers it. -/
  path : String
  template : Template
  captures : Captures
  /-- The values of the variables of the sentence. -/
  locals : Entries String
  config : Config
  sets : SetTable
  /-- The graph of all users. -/
  graph : Graph Template
  /-- The number of categories in the graph of all users. -/
  size : Nat
  user : User

/-- What an element does. -/
inductive Script where
  /-- Ends with a text. -/
  | done (text : String)
  /-- Gives the request up. -/
  | abort (cause : Abort)
  /-- Evaluates the content of the element. -/
  | content (next : String → Script)
  /-- Looks at the state of the conversation. -/
  | look (next : View → Script)
  /-- Begins a round of a loop, the rounds counted from one. -/
  | loop (round : Nat) (next : Script)
  /-- Answers a text as a sub-request. -/
  | request (text : String) (next : String → Script)
  /-- Gives a predicate or variable a value. -/
  | assign (name : String) (scope : Scope) (value : String) (next : Script)
  /-- Learns the category of some markup; the template that its path already has is handed on. -/
  | learn (learner : Learner) (markup : CategoryMarkup)
      (next : Except Fault (Option Template) → Script)
  /-- Lets time pass, in milliseconds. -/
  | wait (time : Nat) (next : Script)

/-! ## Registering elements -/

/-- An element of the host: which uses are well-formed, and what they do. -/
structure Extension where
  accept : HostElement → Except Fault Unit
  script : HostElement → Script

/-- The elements of the host, by their names in lower case. -/
abbrev Registry := Entries Extension

/-- The names of the elements that every template may use. -/
def builtInNames : List String :=
  ["star", "thatstar", "topicstar", "sr", "srai", "think", "get", "set"]

namespace Registry

/-- The element of a name, whose case does not matter. -/
def get? (registry : Registry) (name : String) : Option Extension :=
  registry.lookup (asciiLowercase name)

/-- Adds an element. Names that are built in or taken are refused. -/
def register (registry : Registry) (name : String) (extension : Extension) :
    Except Fault Registry :=
  let key := asciiLowercase name
  if builtInNames.contains key || (registry.lookup key).isSome then
    .error (.duplicateExtension key)
  else .ok ((key, extension) :: registry)

/-- A registration fails exactly for the names that are built in or taken. -/
theorem register_eq_error_iff {registry : Registry} {name : String} {extension : Extension} :
    (∃ fault, registry.register name extension = .error fault) ↔
      asciiLowercase name ∈ builtInNames ∨ (registry.get? name).isSome = true := by
  unfold register get?
  dsimp only
  split
  · next h => simpa using h
  · next h => simpa using h

/-- A registration is found under its name, whatever its case, and changes no other look-up. -/
theorem get?_of_register_eq_ok {registry extended : Registry} {name : String}
    {extension : Extension} (h : registry.register name extension = .ok extended)
    (other : String) :
    extended.get? other =
      if asciiLowercase other = asciiLowercase name then some extension
      else registry.get? other := by
  unfold register at h
  dsimp only at h
  split at h
  · simp at h
  · obtain rfl := Except.ok.inj h
    exact Entries.lookup_cons_eq ..

end Registry

/-! ## The names of a registry as text -/

namespace Registry

/-- The names of the elements, in ascending order. -/
def names (registry : Registry) : List String :=
  (registry.map Prod.fst).mergeSort fun a b => decide (a ≤ b)

/-- A description that lists the elements. -/
def describe (registry : Registry) : String :=
  "ExtensionRegistry \x7b elements: [" ++ ", ".intercalate (registry.names.map quote) ++ "] \x7d"

end Registry

end Parley
