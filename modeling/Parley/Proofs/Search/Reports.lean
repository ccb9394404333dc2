import Parley.Search
import Parley.Substitution

/-!
# What is reported about learning

What becomes of a category that the graph of all users is to get while the bot talks is reported
with its path. Searches and substitutions report about themselves only, so that these reports are
told apart from all others.

Main results:

* `sharedPath?_of_mem_events_search` — a search reports nothing about learning;
* `Substitutions.sharedPath?_of_mem_events` — nor do the substitutions.
-/

namespace Parley

/-- The path of a category that the graph of all users got, or was to get, as an event tells it. -/
def Event.sharedPath? : Event → Option String
  | .learned path => some path
  | .duplicateCategory path _ _ => some path
  | _ => none

variable {α : Type}

/-- What is reported up to the first attempt that finds something is what the attempts report. -/
theorem Attempt.mem_events_first {β γ : Type} {attempt : γ → Attempt β} {xs : List γ} {e : Event}
    (h : e ∈ (Attempt.first attempt xs).events) : ∃ x ∈ xs, e ∈ (attempt x).events := by
  induction xs with
  | nil => cases h
  | cons x xs ih =>
    rw [Attempt.first] at h
    split at h
    · exact ⟨x, List.mem_cons_self, h⟩
    · rcases List.mem_append.1 h with h | h
      · exact ⟨x, List.mem_cons_self, h⟩
      · obtain ⟨y, hy, hmem⟩ := ih h
        exact ⟨y, List.mem_cons_of_mem _ hy, hmem⟩

theorem Node.sharedPath?_of_mem_events_search {q : Query} {n : Node α} {c : Cursor} {p : Progress}
    {e : Event} (h : e ∈ (n.search q c p).events) : e.sharedPath? = none := by
  induction hsize : sizeOf n using Nat.strongRecOn generalizing n c p with
  | _ size ih =>
    subst hsize
    rw [Node.search] at h
    rcases List.mem_append.1 h with h | h
    · -- the visit
      split at h
      · rw [List.mem_singleton.1 h]
        rfl
      · cases h
    · split at h
      · cases h
      · obtain ⟨⟨m, hm⟩, -, hmem⟩ := Attempt.mem_events_first h
        cases m with
        | step label child d => exact ih _ (Node.sizeOf_lt_of_mem_moves hm rfl) hmem rfl
        | capture label taken child d => exact ih _ (Node.sizeOf_lt_of_mem_moves hm rfl) hmem rfl
        | unknownSet name =>
          rw [List.mem_singleton.1 hmem]
          rfl

theorem sharedPath?_of_mem_events_searchFrom {options : SearchOptions} {input : Input} {root : Nat}
    {graphs : List (Graph α)} {e : Event}
    (h : e ∈ (searchFrom options input root graphs).events) : e.sharedPath? = none := by
  induction graphs generalizing root with
  | nil => cases h
  | cons g graphs ih =>
    rw [searchFrom] at h
    split at h
    · rw [List.mem_singleton.1 h]
      rfl
    · dsimp only at h
      split at h
      · exact Node.sharedPath?_of_mem_events_search h
      · rcases List.mem_append.1 h with h | h
        · exact Node.sharedPath?_of_mem_events_search h
        · exact ih h

/-- **A search reports nothing about learning.** -/
theorem sharedPath?_of_mem_events_search {options : SearchOptions} {graphs : List (Graph α)}
    {input : Input} {e : Event} (h : e ∈ (search options graphs input).events) :
    e.sharedPath? = none := by
  rw [search] at h
  split at h
  · rw [List.mem_singleton.1 h]
    rfl
  · rcases List.mem_append.1 h with h | h
    · split at h
      · rw [List.mem_singleton.1 h]
        rfl
      · cases h
    · exact sharedPath?_of_mem_events_searchFrom h

/-- All that the substitutions report is which of them are left out, and that they failed. -/
theorem Substitutions.eq_of_mem_events {list : Substitutions} {e : Event} (h : e ∈ list.events) :
    (∃ pattern, e = .skippedSubstitution pattern) ∨ e = .failedSubstitutions := by
  rw [events] at h
  split at h
  · cases h
  · rw [list.prepared_eq, Substitution.prepare] at h
    split at h
    · obtain ⟨item, -, rfl⟩ := List.mem_map.1 h
      exact Or.inl ⟨_, rfl⟩
    · rcases List.mem_append.1 h with h | h
      · obtain ⟨item, -, rfl⟩ := List.mem_map.1 h
        exact Or.inl ⟨_, rfl⟩
      · exact Or.inr (List.mem_singleton.1 h)

/-- **The substitutions report nothing about learning.** -/
theorem Substitutions.sharedPath?_of_mem_events {list : Substitutions} {e : Event}
    (h : e ∈ list.events) : e.sharedPath? = .none := by
  rcases eq_of_mem_events h with ⟨pattern, rfl⟩ | rfl <;> rfl

end Parley
