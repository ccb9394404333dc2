/-!
# Values under keys

The small tables of the library, such as the predicates of a user: a list of values under keys, in
which an assignment takes the place of what its key had. Main result: `lookup_assign`, an assignment
changes the look-up of its own key and of no other.
-/

namespace Parley

/-- Values under keys. -/
abbrev Entries (α : Type) := List (String × α)

namespace Entries

variable {α : Type}

/-- Gives a key a value; the value that it had is gone. -/
def assign (entries : Entries α) (key : String) (value : α) : Entries α :=
  (key, value) :: entries.filter fun entry => entry.1 != key

/-- Looking up a key asks the first entry, and then the others. -/
theorem lookup_cons_eq (key : String) (value : α) (rest : Entries α) (other : String) :
    ((key, value) :: rest).lookup other =
      if other = key then some value else rest.lookup other := by
  rw [List.lookup_cons]
  by_cases h : other = key
  · simp [h]
  · have hother : (other == key) = false := by simpa using h
    rw [hother, if_neg h]

/-- What a look-up finds is one of the entries. -/
theorem mem_of_lookup_eq_some {entries : Entries α} {key : String} {value : α}
    (h : entries.lookup key = some value) : (key, value) ∈ entries := by
  induction entries with
  | nil => simp at h
  | cons entry rest ih =>
    obtain ⟨k, v⟩ := entry
    rw [lookup_cons_eq] at h
    split at h
    · next hk =>
      obtain rfl := Option.some.inj h
      simp [hk]
    · exact List.mem_cons_of_mem _ (ih h)

/-- Leaving out one key does not matter for another. -/
theorem lookup_filter_of_ne {entries : Entries α} {key other : String} (h : other ≠ key) :
    (entries.filter fun entry => entry.1 != key).lookup other = entries.lookup other := by
  induction entries with
  | nil => rfl
  | cons entry rest ih =>
    obtain ⟨k, value⟩ := entry
    by_cases hk : k = key
    · subst hk
      have hdrop : (k != k) = false := by simp
      rw [List.filter_cons, hdrop, lookup_cons_eq, if_neg h]
      exact ih
    · have hkeep : (k != key) = true := by simpa using hk
      rw [List.filter_cons, hkeep, if_pos rfl, lookup_cons_eq, lookup_cons_eq, ih]

/-- An assignment changes the look-up of its own key and of no other. -/
theorem lookup_assign (entries : Entries α) (key : String) (value : α) (other : String) :
    (entries.assign key value).lookup other =
      if other = key then some value else entries.lookup other := by
  unfold assign
  rw [lookup_cons_eq]
  split
  · rfl
  · next h => exact lookup_filter_of_ne h

end Entries

end Parley
