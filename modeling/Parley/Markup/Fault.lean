/-!
# Faults in markup

The structural faults that patterns, templates and the registration of elements can have, and their
wording.
-/

namespace Parley.Markup

/-- Where an element was not expected. -/
inductive Context where
  | pattern
  | set
  | bot
  | template
  deriving DecidableEq, Repr

def Context.describe : Context → String
  | .pattern => "pattern"
  | .set => "<set>"
  | .bot => "<bot>"
  | .template => "template"

/-- What is wrong with markup or with a registration. -/
inductive Fault where
  /-- An element that may not stand where it stands. -/
  | invalidElement (element : String) (context : Context)
  /-- An element without an attribute that it needs. -/
  | missingAttribute (element name : String)
  /-- An element that is open at the end. -/
  | unterminated (element : String)
  /-- A closing tag that does not close the innermost open element. -/
  | unexpectedClose (element : String)
  /-- A number that is none, or zero. -/
  | invalidIndex (element value : String)
  /-- A name that is built in or already registered. -/
  | duplicateExtension (element : String)
  deriving DecidableEq, Repr

def Fault.message : Fault → String
  | .invalidElement element context => "invalid element <" ++ element ++ "> in " ++ context.describe
  | .missingAttribute element name =>
    "missing '" ++ name ++ "' attribute in <" ++ element ++ ">"
  | .unterminated element => "unterminated <" ++ element ++ "> element"
  | .unexpectedClose element => "unexpected closing tag </" ++ element ++ ">"
  | .invalidIndex element value => "invalid index '" ++ value ++ "' in <" ++ element ++ ">"
  | .duplicateExtension element =>
    "an extension element named <" ++ element ++ "> is already registered"

/-- What comes second is read if what comes first is well-formed. -/
theorem bind_eq_ok_iff {α β : Type} {x : Except Fault α} {f : α → Except Fault β} {b : β} :
    x >>= f = .ok b ↔ ∃ a, x = .ok a ∧ f a = .ok b := by
  cases x <;> simp [bind, Except.bind]

end Parley.Markup
