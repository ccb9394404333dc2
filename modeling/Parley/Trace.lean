import Parley.Text.Case
import Parley.Text.Words

/-!
# Trace switches

Two switches turn on diagnostic events: one for the path that a search works on, one for every
node that it visits. They are written as a comma-separated list.
-/

namespace Parley

open Text

/-- Which diagnostic events are wanted. -/
structure Trace where
  /-- Report the path that a search is asked for. -/
  path : Bool := false
  /-- Report every node that a search visits. -/
  search : Bool := false
  deriving DecidableEq, Repr

namespace Trace

/-- No diagnostics. -/
def none : Trace := {}

/-- All diagnostics. -/
def all : Trace := { path := true, search := true }

/-- Everything that either of two settings asks for. -/
def union (a b : Trace) : Trace :=
  { path := a.path || b.path, search := a.search || b.search }

/-- What one entry of a list of switches asks for; unknown entries ask for nothing. -/
def ofEntry (entry : String) : Trace :=
  match asciiLowercase (trim entry) with
  | "1" | "all" | "true" => all
  | "path" => { path := true }
  | "search" => { search := true }
  | _ => none

/-- Reads a comma-separated list of switches. -/
def parse (value : String) : Trace :=
  ((splitOnChar ',' value.toList).map fun entry => ofEntry (String.ofList entry)).foldl union none

/-- The switches of a setting that may be missing. -/
def ofSetting? : Option String → Trace
  | some value => parse value
  | Option.none => none

end Trace

end Parley
