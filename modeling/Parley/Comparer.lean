import Parley.Entries
import Parley.Text.Case

/-!
# Comparing texts

Words, names and phrases are compared either exactly or without regard to case. Both ways go
through a key: two texts are equal under a comparer exactly when their keys are
(`equals_iff_key_eq`), so that a look-up by key and a comparison never disagree.
-/

namespace Parley

open Text

/-- A way of telling texts apart. -/
inductive Comparer where
  | ignoreCase
  | exact
  deriving DecidableEq, Repr

namespace Comparer

instance : Inhabited Comparer := ⟨.ignoreCase⟩

/-- The form of a text under which it is looked up. A text without an upper-case character is its
own key; title-case letters do not count as upper case here. -/
def key : Comparer → String → String
  | .exact, s => s
  | .ignoreCase, s => if s.toList.any isUppercase then lowercase s else s

/-- Whether two texts are the same under the comparer. -/
def equals (cmp : Comparer) (a b : String) : Bool :=
  cmp.key a == cmp.key b

/-- Two texts are the same exactly when their keys are. -/
theorem equals_iff_key_eq (cmp : Comparer) (a b : String) :
    cmp.equals a b = true ↔ cmp.key a = cmp.key b := by
  simp [equals]

@[simp] theorem equals_self (cmp : Comparer) (a : String) : cmp.equals a a = true := by
  simp [equals]

theorem equals_comm (cmp : Comparer) (a b : String) : cmp.equals a b = cmp.equals b a := by
  simp [equals, Bool.beq_comm]

theorem equals_trans {cmp : Comparer} {a b c : String} (hab : cmp.equals a b = true)
    (hbc : cmp.equals b c = true) : cmp.equals a c = true := by
  simp_all [equals]

/-- The exact comparer leaves texts alone. -/
@[simp] theorem key_exact (s : String) : Comparer.exact.key s = s := rfl

/-- The value under a name: the entry of exactly that name if there is one, else the first entry of
a name that is the same under the comparer. -/
def lookup {α : Type} (cmp : Comparer) (entries : Entries α) (name : String) : Option α :=
  match entries.lookup name with
  | some value => some value
  | none => (entries.find? fun entry => cmp.equals entry.1 name).map Prod.snd

end Comparer

end Parley
