/-!
# Safety aborts and outcomes

A request that takes too long, nests too deep or loops too often is given up. The outcome of a
sentence says which of these happened, or whether a category matched.
-/

namespace Parley

/-- Why a request is given up. -/
inductive Abort where
  | timeout
  | recursionLimit
  | loopLimit
  deriving DecidableEq, Repr

def Abort.message : Abort → String
  | .timeout => "the request exceeded the configured timeout"
  | .recursionLimit => "the request exceeded the recursion limit"
  | .loopLimit => "the request exceeded the loop limit"

/-- How a sentence was answered. -/
inductive Outcome where
  | matched
  | noMatch
  | aborted (cause : Abort)
  deriving DecidableEq, Repr

/-- A sentence counts as matched until something else is known. -/
instance : Inhabited Outcome := ⟨.matched⟩

def Outcome.describe : Outcome → String
  | .matched => "matched"
  | .noMatch => "no match"
  | .aborted .timeout => "timeout"
  | .aborted .recursionLimit => "recursion limit"
  | .aborted .loopLimit => "loop limit"

end Parley
