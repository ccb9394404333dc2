import Parley.Search

/-!
# Searches and their diagnostics

The trace switches turn diagnostic events on. A search reports them in between its other events, at
every node that it visits, but it does not go by them: without its diagnostics, a search is the
search with all switches off.

Main results:

* `Event.isDiagnostic_iff` — which events are diagnostic;
* `Node.quiet_search` — the search from a node, whether its visits are reported or not;
* `quiet_search` — the search of several graphs, whatever the switches are.
-/

namespace Parley

open Text

variable {α β γ : Type}

/-! ## Diagnostic events -/

namespace Event

/-- The diagnostic events are those for the path of a search and for the nodes that it visits. -/
theorem isDiagnostic_iff {e : Event} :
    e.isDiagnostic = true ↔ e.message = "normalized path" ∨ e.message = "search" := by
  cases e <;> simp [isDiagnostic, level, message]

/-- Events without the diagnostic ones. -/
def remaining (events : List Event) : List Event := events.filter fun e => !e.isDiagnostic

theorem remaining_append (events more : List Event) :
    remaining (events ++ more) = remaining events ++ remaining more :=
  List.filter_append events more

theorem remaining_reverse (events : List Event) :
    remaining events.reverse = (remaining events).reverse :=
  List.filter_reverse

theorem remaining_cons {e : Event} (h : e.isDiagnostic = false) (events : List Event) :
    remaining (e :: events) = e :: remaining events :=
  List.filter_cons_of_pos (by rw [h]; rfl)

end Event

/-! ## Attempts -/

namespace Attempt

/-- An attempt without its diagnostics. -/
def quiet (a : Attempt β) : Attempt β := { a with events := Event.remaining a.events }

theorem quiet_after (events : List Event) (a : Attempt β) :
    (a.after events).quiet = a.quiet.after (Event.remaining events) := by
  rw [quiet, after, Event.remaining_append]
  rfl

/-- Diagnostics are not gone by when an attempt is chosen. -/
theorem quiet_first (attempt : γ → Attempt β) (xs : List γ) :
    (first attempt xs).quiet = first (fun x => (attempt x).quiet) xs := by
  induction xs with
  | nil => rfl
  | cons x xs ih =>
    rw [first, first, show (attempt x).quiet.found? = (attempt x).found? from rfl]
    split
    · rfl
    · rw [quiet_after, ih]
      rfl

theorem first_congr {attempt attempt' : γ → Attempt β} {xs : List γ}
    (h : ∀ x ∈ xs, attempt x = attempt' x) : first attempt xs = first attempt' xs := by
  induction xs with
  | nil => rfl
  | cons x xs ih =>
    obtain ⟨hx, hxs⟩ := List.forall_mem_cons.1 h
    rw [first, first, hx, ih hxs]

end Attempt

/-! ## The search from a node -/

/-- The same query without reports of visits. -/
def Query.untraced (q : Query) : Query := { q with traceVisits := false }

/-- The search from a node is the search without reports of visits, but for its diagnostics. -/
theorem Node.quiet_search (q : Query) (n : Node α) (c : Cursor) (p : Progress) :
    (n.search q c p).quiet = n.search q.untraced c p := by
  induction hsize : sizeOf n using Nat.strongRecOn generalizing n c p with
  | _ size ih =>
    subst hsize
    have hvisit : Event.remaining (if q.traceVisits then
        [Event.searchStep (unwords p.trail) (c.position q.input)] else []) = [] := by
      split <;> rfl
    rw [Node.search, Node.search, Attempt.quiet_after, hvisit]
    dsimp only [Query.untraced]
    refine congrArg (Attempt.after []) ?_
    split
    · rfl
    · -- the moves are the same, and each leads to a smaller node
      rw [Attempt.quiet_first]
      refine Attempt.first_congr fun move _ => ?_
      obtain ⟨m, hm⟩ := move
      cases m with
      | step label child d => exact ih _ (sizeOf_lt_of_mem_moves hm rfl) child d _ rfl
      | capture label taken child d => exact ih _ (sizeOf_lt_of_mem_moves hm rfl) child d _ rfl
      | unknownSet name => rfl

/-! ## The search of several graphs -/

/-- What a search reports without its diagnostics, and how it ends. -/
def SearchResult.quiet (r : SearchResult α) : SearchResult α :=
  { r with events := Event.remaining r.events }

/-- The same options with other trace switches. -/
def SearchOptions.withTrace (options : SearchOptions) (trace : Trace) : SearchOptions :=
  { options with trace }

theorem quiet_searchFrom (options : SearchOptions) (input : Input) (root : Nat)
    (graphs : List (Graph α)) :
    (searchFrom options input root graphs).quiet =
      searchFrom (options.withTrace .none) input root graphs := by
  induction graphs generalizing root with
  | nil => rfl
  | cons g graphs ih =>
    rw [searchFrom, searchFrom]
    by_cases hexpired : options.expired = true
    · have huntraced : (options.withTrace .none).expired = true := hexpired
      rw [if_pos hexpired, if_pos huntraced]
      rfl
    · have huntraced : ¬(options.withTrace .none).expired = true := hexpired
      rw [if_neg hexpired, if_neg huntraced]
      -- the same attempt is made in the first graph
      have hattempt := g.root.quiet_search
        { comparer := g.comparer, sets := options.sets, input
          defaultWildcard := options.defaultWildcard, traceVisits := options.trace.search }
        (.startOf input .message) {}
      dsimp only [SearchOptions.withTrace, Trace.none, Query.untraced] at hattempt ih ⊢
      rw [← hattempt, ← ih]
      dsimp only [Attempt.quiet]
      split
      · rfl
      · rw [SearchResult.quiet, Event.remaining_append]
        rfl

/-- **A search does not go by the trace switches.** But for its diagnostics, it is the search with
all switches off. -/
theorem quiet_search (options : SearchOptions) (graphs : List (Graph α)) (input : Input) :
    (search options graphs input).quiet = search (options.withTrace .none) graphs input := by
  rw [search, search]
  by_cases hdepth : options.depth > options.recursionLimit
  · have huntraced : (options.withTrace .none).depth > (options.withTrace .none).recursionLimit :=
      hdepth
    rw [if_pos hdepth, if_pos huntraced]
    rfl
  · have huntraced : ¬(options.withTrace .none).depth > (options.withTrace .none).recursionLimit :=
      hdepth
    rw [if_neg hdepth, if_neg huntraced, ← quiet_searchFrom]
    -- the path is not announced, which is a diagnostic
    have hannounced : Event.remaining (if options.trace.path then
        [Event.normalizedPath input.render] else []) = [] := by
      split <;> rfl
    rw [SearchResult.quiet, Event.remaining_append, hannounced]
    rfl

end Parley
