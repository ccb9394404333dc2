import Parley.Proofs.Search.Diagnostics
import Parley.Traversal

/-!
# Attempts one after the other

A search tries the moves from a node in their order. What it reports and finds can be put together
from the moves in any grouping, and it can be looked at with something else done to it.

Main results:

* `Attempt.first_append` — to try two lists is to try the first one, and the other one after it;
* `Node.search_eq` — one step of a search, as an attempt for each move;
* `Node.search_behind` — what was captured before a search is only in front of what it captures;
* `Node.map_fill_search` — to fill a capture behind a search is to search with the capture taken.
-/

namespace Parley

open Text

variable {α β γ : Type}

/-! ## Attempts -/

namespace Attempt

/-- An attempt, and another one after it if it finds nothing. -/
def orElse (a b : Attempt β) : Attempt β :=
  match a.found? with
  | some _ => a
  | none => b.after a.events

/-- The first attempt, and if it fails, those behind it. -/
theorem first_cons (attempt : γ → Attempt β) (x : γ) (xs : List γ) :
    first attempt (x :: xs) = (attempt x).orElse (first attempt xs) := rfl

/-- Nothing to try behind it, nothing more to report. -/
theorem orElse_nothing (a : Attempt β) : a.orElse (nothing []) = a := by
  obtain ⟨events, found?⟩ := a
  cases found? <;> simp [orElse, after, nothing]

/-- Of one attempt, the first is that one. -/
theorem first_singleton (attempt : γ → Attempt β) (x : γ) : first attempt [x] = attempt x :=
  orElse_nothing _

/-- Of three attempts, it does not matter which two are taken together. -/
theorem orElse_assoc (a b c : Attempt β) : (a.orElse b).orElse c = a.orElse (b.orElse c) := by
  obtain ⟨events, found?⟩ := a
  obtain ⟨events', found?'⟩ := b
  cases found? <;> cases found?' <;> simp [orElse, after, List.append_assoc]

/-- The attempts of two lists are tried in their order. -/
theorem first_append (attempt : γ → Attempt β) (xs ys : List γ) :
    first attempt (xs ++ ys) = (first attempt xs).orElse (first attempt ys) := by
  induction xs with
  | nil => rfl
  | cons x xs ih => rw [List.cons_append, first_cons, first_cons, ih, orElse_assoc]

/-- An attempt with something else done to what it finds. -/
def map (f : β → γ) (a : Attempt β) : Attempt γ := { events := a.events, found? := a.found?.map f }

/-- What is done to a result and what was reported before do not meet. -/
theorem map_after (f : β → γ) (events : List Event) (a : Attempt β) :
    (a.after events).map f = (a.map f).after events := rfl

/-- To change what either attempt finds is to change what both find. -/
theorem map_orElse (f : β → γ) (a b : Attempt β) :
    (a.orElse b).map f = (a.map f).orElse (b.map f) := by
  obtain ⟨events, found?⟩ := a
  cases found? <;> rfl

/-- The same for a list of attempts. -/
theorem map_first {δ : Type} (f : β → γ) (attempt : δ → Attempt β) (xs : List δ) :
    (first attempt xs).map f = first (fun x => (attempt x).map f) xs := by
  induction xs with
  | nil => rfl
  | cons x xs ih => rw [first_cons, first_cons, map_orElse, ih]

/-- Attempts for the images of some elements. -/
theorem first_map {δ : Type} (attempt : γ → Attempt β) (f : δ → γ) (xs : List δ) :
    first attempt (xs.map f) = first (fun x => attempt (f x)) xs := by
  induction xs with
  | nil => rfl
  | cons x xs ih =>
    rw [List.map_cons, first_cons, first_cons, ih]

/-- What is left out of a list counts as an attempt that does nothing. -/
theorem first_filter (attempt : γ → Attempt β) (p : γ → Bool) (xs : List γ) :
    first attempt (xs.filter p) = first (fun x => if p x then attempt x else nothing []) xs := by
  induction xs with
  | nil => rfl
  | cons x xs ih =>
    rw [first_cons]
    by_cases hx : p x = true
    · rw [List.filter_cons_of_pos hx, if_pos hx, first_cons, ih]
    · rw [List.filter_cons_of_neg hx, if_neg hx, ih]
      rfl

/-- An attempt that knows where its element comes from does the same. -/
theorem first_attach {attempt : γ → Attempt β} {xs : List γ}
    {attempt' : { x // x ∈ xs } → Attempt β} (h : ∀ x, attempt' x = attempt x.1) :
    first attempt' xs.attach = first attempt xs := by
  calc first attempt' xs.attach
      = first (fun x => attempt x.1) xs.attach := first_congr fun x _ => h x
    _ = first attempt (xs.attach.map Subtype.val) := (first_map attempt Subtype.val _).symm
    _ = first attempt xs := by rw [List.attach_map_subtype_val]

/-- Attempts over numbers that all begin further on. -/
theorem first_range'_add (attempt : Nat → Attempt β) (i first' length : Nat) :
    first attempt (List.range' first' length) =
      first (fun j => attempt (j - i)) (List.range' (i + first') length) := by
  rw [← List.map_add_range', first_map]
  refine congrArg (fun f => first f _) ?_
  funext k
  rw [Nat.add_sub_cancel_left]

/-- Attempts for distances are attempts for positions, from the last one on. -/
theorem first_reverse_range'_add (attempt : Nat → Attempt β) (i first' length : Nat) :
    first attempt (List.range' first' length).reverse =
      first (fun j => attempt (j - i)) (List.range' (i + first') length).reverse := by
  rw [← List.map_add_range', ← List.map_reverse, first_map]
  refine congrArg (fun f => first f _) ?_
  funext k
  rw [Nat.add_sub_cancel_left]

end Attempt

/-! ## What a move leads to -/

/-- The search along a move. -/
def Move.search (q : Query) (c : Cursor) (p : Progress) : Move α → Attempt (Way α)
  | .step label child d => child.search q d (p.along label)
  | .capture label taken child d =>
    child.search q d { trail := p.trail ++ [label], captures := p.captures.push c.segment taken }
  | .unknownSet name =>
    .nothing [.missingSet name (unwords (p.trail ++ [Token.setLabel name]))]

/-- A search takes the entry of the node at the end of the input, and tries the moves otherwise. -/
theorem Node.search_eq (q : Query) (n : Node α) (c : Cursor) (p : Progress) :
    n.search q c p =
      Attempt.after
        (if q.traceVisits then [Event.searchStep (unwords p.trail) (c.position q.input)] else [])
        (match if c.atEnd = true then n.value? else none with
        | some entry => { events := [], found? := some { entry, progress := p } }
        | none => Attempt.first (Move.search q c p) (n.moves q c)) := by
  -- the search runs through the moves with the proofs that they lead down; the result needs none
  have hmoves : ∀ attempt' : { m // m ∈ n.moves q c } → Attempt (Way α),
      (∀ m, attempt' m = Move.search q c p m.1) →
        Attempt.first attempt' (n.moves q c).attach =
          Attempt.first (Move.search q c p) (n.moves q c) :=
    fun attempt' h => Attempt.first_attach h
  rw [Node.search]
  refine congrArg _ ?_
  split
  · next entry hvalue hend => rw [if_pos hend, hvalue]
  · next hnot =>
    rw [hmoves]
    · cases hend : c.atEnd with
      | false => rfl
      | true =>
        cases hvalue : n.value? with
        | none => rfl
        | some entry => exact absurd hend (hnot entry hvalue)
    · rintro ⟨m, hm⟩
      cases m <;> rfl

/-! ## What was captured before -/

namespace Captures

/-- Captures with others behind them. -/
def append (c d : Captures) : Captures :=
  { star := c.star ++ d.star
    thatStar := c.thatStar ++ d.thatStar
    topicStar := c.topicStar ++ d.topicStar }

/-- The captures of a segment stay together. -/
theorem get_append (c d : Captures) (s : Segment) : (c.append d).get s = c.get s ++ d.get s := by
  cases s <;> rfl

/-- The last capture is behind the others in either order of steps. -/
theorem append_push (c d : Captures) (s : Segment) (text : String) :
    (c.append d).push s text = c.append (d.push s text) := by
  cases s <;> simp only [append, push, List.append_assoc]

/-- No captures behind, none added. -/
theorem append_empty (c : Captures) : c.append {} = c := by
  refine ext_get fun s => ?_
  rw [get_append]
  cases s <;> exact List.append_nil _

/-- To fill a capture that others have been added behind is to add it filled. -/
theorem fill_append_reserve (c d : Captures) (s : Segment) (text : String) :
    ((c.reserve s).append d).fill s (c.get s).length text = (c.push s text).append d := by
  refine ext_get fun t => ?_
  rw [get_fill, get_append, get_append, get_reserve, get_push]
  by_cases ht : t = s
  · subst ht
    rw [if_pos rfl, if_pos rfl, if_pos rfl, List.append_assoc, List.append_assoc,
      List.set_append_right _ _ (Nat.le_refl _), Nat.sub_self]
    rfl
  · rw [if_neg ht, if_neg ht, if_neg ht]

end Captures

/-- A way with captures in front of those that it has taken. -/
def Way.behind (captures : Captures) (way : Way α) : Way α :=
  { way with progress.captures := captures.append way.progress.captures }

/-- What was captured before a search is only in front of what it captures. -/
theorem Node.search_behind (q : Query) (n : Node α) (c : Cursor) (trail : List String)
    (captures more : Captures) :
    n.search q c { trail, captures := captures.append more } =
      (n.search q c { trail, captures := more }).map (Way.behind captures) := by
  -- induction on the node; the search goes along the same moves with either captures
  induction hsize : sizeOf n using Nat.strongRecOn generalizing n c trail more with
  | _ size ih =>
    subst hsize
    rw [Node.search_eq, Node.search_eq, Attempt.map_after]
    refine congrArg _ ?_
    cases if c.atEnd = true then n.value? else none with
    | some entry => rfl
    | none =>
      rw [Attempt.map_first]
      refine Attempt.first_congr fun m hm => ?_
      cases m with
      | step label child d => exact ih _ (sizeOf_lt_of_mem_moves hm rfl) child d _ more rfl
      | capture label taken child d =>
        rw [Move.search, Captures.append_push]
        exact ih _ (sizeOf_lt_of_mem_moves hm rfl) child d _ _ rfl
      | unknownSet name => rfl

/-- To reserve a capture and fill it afterwards is to take it at once. -/
theorem Node.map_fill_search (q : Query) (n : Node α) (c : Cursor) (p : Progress) (s : Segment)
    (label text : String) :
    (n.search q c ((p.reserve s).along label)).map (fun way =>
        { way with progress := way.progress.fill s (p.captures.get s).length text }) =
      n.search q c { trail := p.trail ++ [label], captures := p.captures.push s text } := by
  have hreserve : (p.reserve s).along label =
      { trail := p.trail ++ [label], captures := (p.captures.reserve s).append {} } := by
    rw [Captures.append_empty]
    rfl
  have hpush := n.search_behind q c (p.trail ++ [label]) (p.captures.push s text) {}
  rw [Captures.append_empty] at hpush
  rw [hreserve, n.search_behind, hpush]
  simp only [Attempt.map, Option.map_map]
  congr 2
  funext way
  simp only [Function.comp, Way.behind, Progress.fill, Captures.fill_append_reserve]

end Parley
