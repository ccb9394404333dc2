import Parley.Comparer
import Parley.Text.Words

/-!
# Sets of phrases

A set token of a path takes the words of a phrase in a named set. A set is a list of phrases, or one
of two sets that are computed: the numbers and the single words. A bound on the words of a phrase
tells a search how far it has to look ahead.

Main results:

* `contains_ofPhrases_iff` — a set of phrases contains exactly what has the key of one of them;
* `length_words_le_maxWords` — none of the phrases has more words than the bound;
* `SetTable.get?_insert` — what giving a name to a set does to every look-up.
-/

namespace Parley

open Text

/-- A set of phrases. -/
inductive PhraseSet where
  /-- Given phrases, by the keys of a comparer, and the most words that one of them has. -/
  | phrases (comparer : Comparer) (keys : List String) (maxWords : Nat)
  /-- The texts of numeric characters. -/
  | number
  /-- The single words. -/
  | word
  deriving DecidableEq, Repr

namespace PhraseSet

/-- The key of a phrase, which does not depend on the blanks between and around its words. -/
def phraseKey (cmp : Comparer) (phrase : String) : String :=
  cmp.key (unwords (words phrase))

def ofPhrases (cmp : Comparer) (phrases : List String) : PhraseSet :=
  .phrases cmp (phrases.map (phraseKey cmp)).eraseDups
    (phrases.foldl (fun most phrase => max most (words phrase).length) 0)

def contains : PhraseSet → String → Bool
  | .phrases cmp keys _, phrase => keys.contains (cmp.key phrase)
  | .number, phrase => !phrase.toList.isEmpty && phrase.toList.all isNumeric
  | .word, phrase => !phrase.toList.isEmpty && phrase.toList.all fun c => !isBlank c

/-- A bound on the words of the phrases of a set. -/
def maxWords : PhraseSet → Nat
  | .phrases _ _ most => most
  | .number => 1
  | .word => 1

/-- The words of the phrases of a set, as far as they are listed. -/
def vocabulary : PhraseSet → List String
  | .phrases _ keys _ => keys.flatMap words
  | .number => []
  | .word => []

def size : PhraseSet → Nat
  | .phrases _ keys _ => keys.length
  | .number => 0
  | .word => 0

/-- A set of phrases contains exactly what has the key of one of them. -/
theorem contains_ofPhrases_iff {cmp : Comparer} {phrases : List String} {phrase : String} :
    (ofPhrases cmp phrases).contains phrase = true ↔
      ∃ p ∈ phrases, phraseKey cmp p = cmp.key phrase := by
  simp [ofPhrases, contains, List.mem_eraseDups]

theorem foldl_max_ge {α : Type} (f : α → Nat) (l : List α) (start : Nat) :
    start ≤ l.foldl (fun most a => max most (f a)) start ∧
      ∀ a ∈ l, f a ≤ l.foldl (fun most a => max most (f a)) start := by
  induction l generalizing start with
  | nil => simp
  | cons b rest ih =>
    have hrest := ih (max start (f b))
    rw [List.foldl_cons]
    refine ⟨by omega, fun a ha => ?_⟩
    rcases List.mem_cons.1 ha with rfl | ha
    · omega
    · exact hrest.2 a ha

/-- None of the phrases of a set has more words than the bound. -/
theorem length_words_le_maxWords {cmp : Comparer} {phrases : List String} {p : String}
    (h : p ∈ phrases) : (words p).length ≤ (ofPhrases cmp phrases).maxWords :=
  (foldl_max_ge (fun phrase => (words phrase).length) phrases 0).2 p h

end PhraseSet

/-- Sets by their names, which are compared by a comparer. -/
structure SetTable where
  comparer : Comparer
  entries : Entries PhraseSet := []

namespace SetTable

def get? (table : SetTable) (name : String) : Option PhraseSet :=
  table.entries.lookup (table.comparer.key name)

def contains (table : SetTable) (name : String) : Bool :=
  (table.get? name).isSome

/-- Gives a name to a set; a set that had the name is gone. -/
def insert (table : SetTable) (name : String) (set : PhraseSet) : SetTable :=
  { table with entries := table.entries.assign (table.comparer.key name) set }

def empty (cmp : Comparer) : SetTable := { comparer := cmp }

/-- The two computed sets, under the names `number` and `word`. -/
def withBuiltIns (cmp : Comparer) : SetTable :=
  ((empty cmp).insert "number" .number).insert "word" .word

def size (table : SetTable) : Nat := table.entries.length

def values (table : SetTable) : List PhraseSet := table.entries.map Prod.snd

/-- A set is found under every spelling of the name it was given, and under no other name. -/
theorem get?_insert (table : SetTable) (name : String) (set : PhraseSet) (other : String) :
    (table.insert name set).get? other =
      if table.comparer.equals other name then some set else table.get? other := by
  simp only [get?, insert, Entries.lookup_assign, Comparer.equals_iff_key_eq]

end SetTable

end Parley
