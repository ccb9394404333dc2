import Parley.Proofs.Search.Attempts
import Parley.Proofs.Search.Locations

/-!
# Searches as traversals

A search hands every branch the progress that it starts with. A traversal lets all branches work on
one progress, and the position that a search takes for the words ahead is a number. Both find the
same entry with the same trail and the same captures, and report the same.

Main results:

* `Location.exists_ahead` — the words ahead are those at the numbers from the position on;
* `realizes_traverse` — a visit in time is a search from the node;
* `agrees_traverse` — the same of several graphs, in time or not;
* `search_stays_in_segments` — what is known of a traversal, of a search.
-/

namespace Parley

open Text Traversal

variable {α β γ : Type}

/-! ## Locations and the words ahead -/

namespace Input

/-- The words of an input from the start of a segment on begin with those of the segment. -/
theorem exists_drop_start (input : Input) (s : Segment) :
    ∃ rest, input.words.drop (input.start s) = input.segment s ++ rest := by
  obtain ⟨front, rest, hwords, hstart⟩ : ∃ front rest,
      input.words = front ++ (input.segment s ++ rest) ∧ front.length = input.start s := by
    cases s with
    | message => exact ⟨[], _, rfl, rfl⟩
    | that =>
      exact ⟨input.message ++ [Token.thatSeparator], Token.topicSeparator :: input.topic,
        by simp [words, segment], List.length_append⟩
    | topic =>
      exact ⟨input.message ++ Token.thatSeparator :: (input.that ++ [Token.topicSeparator]), [],
        by simp [words, segment], by simp [start, Nat.add_assoc, Nat.add_comm 1]⟩
  exact ⟨rest, by rw [hwords, List.drop_left' hstart]⟩

/-- What a span within a segment holds. -/
theorem take_drop_words (input : Input) {s : Segment} {i k : Nat} (hstart : input.start s ≤ i)
    (hstop : i + k ≤ input.stop s) :
    (input.words.drop i).take k = ((input.segment s).drop (i - input.start s)).take k := by
  obtain ⟨rest, hrest⟩ := input.exists_drop_start s
  have hlength : i - input.start s + k ≤ (input.segment s).length := by
    rw [stop] at hstop
    omega
  have hdrop : input.words.drop i =
      (input.segment s).drop (i - input.start s) ++ rest := by
    rw [show i = input.start s + (i - input.start s) by omega, ← List.drop_drop, hrest,
      List.drop_append_of_le_length (by omega), Nat.add_sub_cancel_left]
  rw [hdrop, List.take_append_of_le_length]
  rw [List.length_drop]
  omega

end Input

namespace Location

/-- The cursor at a location: the words of the segment that are ahead of it. -/
def cursor (input : Input) (l : Location) : Cursor :=
  { segment := l.segment
    ahead := (input.segment l.segment).drop (l.position - input.start l.segment) }

variable {here : Location} {input : Input}

/-- As many words are ahead as there are positions up to the end of the segment. -/
theorem length_ahead (h : here.IsIn input) :
    (here.cursor input).ahead.length = input.stop here.segment - here.position := by
  have hstart := h.1
  rw [cursor, List.length_drop, Input.stop]
  omega

/-- The position of the cursor is that of the location. -/
theorem position_cursor (h : here.IsIn input) :
    (here.cursor input).position input = here.position := by
  have hstop := h.2
  rw [Cursor.position, length_ahead h]
  show input.stop here.segment - _ = _
  omega

/-- To skip words is to go to a later position. -/
theorem skip_cursor (h : here.IsIn input) (k : Nat) :
    (here.cursor input).skip k = cursor input { here with position := here.position + k } := by
  have hstart := h.1
  rw [Cursor.skip, cursor, cursor, List.drop_drop]
  congr 2
  dsimp only
  omega

/-- The words ahead are those that a span reads. -/
theorem take_ahead (h : here.IsIn input) {k : Nat}
    (hk : here.position + k ≤ input.stop here.segment) :
    (here.cursor input).ahead.take k = (input.words.drop here.position).take k :=
  (input.take_drop_words h.1 hk).symm

/-- If a word is ahead, it is the one at the location. -/
theorem exists_ahead (h : here.IsIn input) (hlt : here.position < input.stop here.segment) :
    ∃ w, input.words[here.position]? = some w ∧ (here.cursor input).ahead =
      w :: (cursor input { here with position := here.position + 1 }).ahead := by
  have hlength := length_ahead h
  obtain ⟨w, rest, hahead⟩ : ∃ w rest, (here.cursor input).ahead = w :: rest :=
    List.exists_cons_of_length_pos (by omega)
  refine ⟨w, ?_, ?_⟩
  -- the word at the location is the first of the words that a span of one reads
  · have htake := take_ahead h (k := 1) (by omega)
    rw [hahead] at htake
    have hhead := congrArg List.head? htake
    rw [List.head?_take, if_neg (by decide), List.head?_take, if_neg (by decide),
      List.head?_drop] at hhead
    exact hhead.symm
  · have hskip := congrArg Cursor.ahead (skip_cursor h 1)
    rw [← hskip, Cursor.skip, hahead]
    rfl

/-- At the end of a segment no word is ahead. -/
theorem ahead_eq_nil (h : here.IsIn input) (hend : ¬here.position < input.stop here.segment) :
    (here.cursor input).ahead = [] := by
  have hlength := length_ahead h
  exact List.length_eq_zero_iff.1 (by omega)

/-- The words ahead of the start of a segment are those of the segment. -/
theorem cursor_start (input : Input) (s : Segment) :
    cursor input { segment := s, position := input.start s } = .startOf input s := by
  rw [cursor, Nat.sub_self, List.drop_zero]
  rfl

/-- Behind the separator at the end of a segment, the words of the next one are ahead. -/
theorem cursor_across (h : here.IsIn input) (hend : ¬here.position < input.stop here.segment)
    {separator : String} (hseparator : here.segment.separator? = some separator) :
    cursor input { segment := here.segment.advance, position := here.position + 1 } =
      .startOf input here.segment.advance := by
  rw [Nat.le_antisymm h.2 (Nat.le_of_not_lt hend),
    ← input.start_advance (Segment.ne_topic_of_separator? hseparator), cursor_start]

/-- A cursor is at the end if the location is at the end of the words. -/
theorem atEnd_cursor (h : here.IsIn input) :
    (here.cursor input).atEnd = true ↔ here.position = input.words.length := by
  rw [Cursor.atEnd, Bool.and_eq_true, beq_iff_eq, List.isEmpty_iff_length_eq_zero, length_ahead h,
    Input.length_words]
  have hstop := h.2
  constructor
  · rintro ⟨hsegment, hzero⟩
    rw [show here.segment = .topic from hsegment] at hzero hstop
    omega
  · intro heq
    have hsegment := h.eq_topic (heq.trans input.length_words.symm)
    exact ⟨hsegment, by rw [hsegment, heq, Nat.sub_self]⟩

end Location

/-! ## Computations that do what an attempt does -/

/-- Whether a computation, with some progress to start with, finds and reports what an attempt does.
It leaves the progress as it was if it finds nothing. -/
def Realizes (p : Progress) (act : TraversalM α (Option α)) (a : Attempt (Way α)) : Prop :=
  ∀ t : Traversal α, t.progress = p → ∃ records, act.run t =
    match a.found? with
    | none => .ok none { progress := p, events := t.events ++ a.events, records }
    | some way =>
      .ok (some way.entry) { progress := way.progress, events := t.events ++ a.events, records }

section Realizing

variable {p : Progress} {act : TraversalM α (Option α)} {a : Attempt (Way α)}

/-- To find nothing is what an attempt does that finds and reports nothing. -/
theorem Realizes.pure_none : Realizes p (pure none : TraversalM α (Option α)) (.nothing []) := by
  rintro t rfl
  refine ⟨t.records, ?_⟩
  show EStateM.Result.ok none t = _
  rw [Attempt.nothing, List.append_nil]

/-- The first computation finds something, or it has left the progress to the others. -/
theorem Realizes.findSomeM?_cons {f : γ → TraversalM α (Option α)} {x : γ} {l : List γ}
    {b : Attempt (Way α)} (hx : Realizes p (f x) a) (hl : Realizes p (l.findSomeM? f) b) :
    Realizes p ((x :: l).findSomeM? f) (a.orElse b) := by
  intro t ht
  obtain ⟨records, hrun⟩ := hx t ht
  rw [List.findSomeM?_cons, EStateM.run_bind, hrun, Attempt.orElse]
  cases ha : a.found? with
  | some way => exact ⟨records, by rw [ha]; rfl⟩
  | none =>
    -- the rest starts with the progress that was there at first
    obtain ⟨records', hrun'⟩ := hl { progress := p, events := t.events ++ a.events, records } rfl
    refine ⟨records', ?_⟩
    dsimp only at hrun' ⊢
    rw [hrun', List.append_assoc]
    rfl

/-- Computations for the elements of a list do what the attempts for them do in turn. -/
theorem Realizes.findSomeM? {f : γ → TraversalM α (Option α)} {attempt : γ → Attempt (Way α)}
    {l : List γ} (h : ∀ x ∈ l, Realizes p (f x) (attempt x)) :
    Realizes p (l.findSomeM? f) (Attempt.first attempt l) := by
  induction l with
  | nil => exact .pure_none
  | cons x l ih =>
    obtain ⟨hx, hl⟩ := List.forall_mem_cons.1 h
    exact hx.findSomeM?_cons (ih hl)

/-- Computations that go through one list of moves after the other go through all of them. -/
theorem Realizes.flatMap {δ : Type} {f : γ → TraversalM α (Option α)}
    {move : δ → Attempt (Way α)} {l : List γ} {moves : γ → List δ}
    (h : ∀ x ∈ l, Realizes p (f x) (Attempt.first move (moves x))) :
    Realizes p (l.findSomeM? f) (Attempt.first move (l.flatMap moves)) := by
  induction l with
  | nil => exact .pure_none
  | cons x l ih =>
    obtain ⟨hx, hl⟩ := List.forall_mem_cons.1 h
    -- the moves of the first element come before those of the others
    rw [List.flatMap_cons, Attempt.first_append]
    exact hx.findSomeM?_cons (ih hl)

/-- A computation goes on with what another one yields without a change. -/
theorem Realizes.bind {x : TraversalM α γ} {f : γ → TraversalM α (Option α)} {c : γ}
    (hx : ∀ t : Traversal α, x.run t = .ok c t) (h : Realizes p (f c) a) :
    Realizes p (x >>= f) a := by
  intro t ht
  rw [EStateM.run_bind, hx t]
  exact h t ht

/-- A label is on the trail while its branch is tried, and is taken back if that fails. -/
theorem Realizes.step {label : String} (h : Realizes (p.along label) act a) :
    Realizes p (step label act) a := by
  rintro t rfl
  obtain ⟨records, hrun⟩ := h { t with progress := t.progress.along label } rfl
  refine ⟨records, ?_⟩
  rw [run_step, hrun]
  cases a.found? with
  | some way => rfl
  | none =>
    dsimp only
    rw [Progress.back_along]

/-- A capture is reserved while its branch is tried, and is released if that fails. -/
theorem Realizes.capture {attempt : Nat → TraversalM α (Option α)} {label : String} {s : Segment}
    (h : Realizes ((p.reserve s).along label) (attempt (p.captures.get s).length) a) :
    Realizes p (capture label s attempt) a := by
  rintro t rfl
  obtain ⟨records, hrun⟩ := h { t with progress := (t.progress.reserve s).along label } rfl
  refine ⟨records, ?_⟩
  rw [run_capture]
  dsimp only
  rw [hrun]
  cases a.found? with
  | some way => rfl
  | none =>
    dsimp only
    rw [Progress.release_reserve]

/-- The capture is filled on the way back, which a search does to the way that it has found. -/
theorem Realizes.filling {text : TraversalM α String} {taken : String} (h : Realizes p act a)
    (htext : ∀ t : Traversal α, text.run t = .ok taken t) (s : Segment) (slot : Nat) :
    Realizes p (filling s slot act text)
      (a.map fun way => { way with progress := way.progress.fill s slot taken }) := by
  intro t ht
  obtain ⟨records, hrun⟩ := h t ht
  refine ⟨records, ?_⟩
  rw [run_filling, hrun]
  rw [Attempt.map]
  cases a.found? with
  | none => rfl
  | some way =>
    dsimp only [Option.map_some]
    rw [htext]

end Realizing

/-! ## Moves -/

section Moves

variable {q : Query} {n child : Node α} {here : Location} {p : Progress} {visit : VisitBelow n}

/-- What the visits below a node have to realize for the moves from it. -/
def BelowRealizes (q : Query) (n : Node α) (here : Location) (visit : VisitBelow n) : Prop :=
  ∀ child hlt there, here.Next q.input there → there.IsIn q.input → ∀ p,
    Realizes p (visit child hlt there) (child.search q (there.cursor q.input) p)

/-- Within the segment, the child is visited at a later position. -/
theorem BelowRealizes.within (h : BelowRealizes q n here visit) (hin : here.IsIn q.input)
    (hlt : sizeOf child < sizeOf n) (i : Nat) (hle : here.position ≤ i)
    (hstop : i ≤ q.input.stop here.segment) (p : Progress) :
    Realizes p (visit child hlt { here with position := i })
      (child.search q (Location.cursor q.input { here with position := i }) p) :=
  h child hlt _ (.within hle) ⟨hin.1.trans hle, hstop⟩ p

/-- A span from the location on reads the words ahead. -/
theorem run_span_ahead (hin : here.IsIn q.input) {i : Nat} (hle : here.position ≤ i)
    (hstop : i ≤ q.input.stop here.segment) (t : Traversal α) :
    (span q.input here.position i).run t =
      .ok ((here.cursor q.input).ahead.take (i - here.position)) t := by
  rw [run_span, if_pos ⟨hle, hstop.trans (q.input.stop_le_length_words _)⟩,
    Location.take_ahead hin (by omega)]

/-- To fill a reserved capture behind a search is to search with the capture taken. -/
theorem Realizes.taking {visit : TraversalM α (Option α)} {text : TraversalM α String}
    {label taken : String} {i : Nat} (hin : here.IsIn q.input) (hle : here.position ≤ i)
    (h : Realizes ((p.reserve here.segment).along label) visit
      (child.search q (Location.cursor q.input { here with position := i })
        ((p.reserve here.segment).along label)))
    (htext : ∀ t : Traversal α, text.run t = .ok taken t) :
    Realizes ((p.reserve here.segment).along label)
      (Traversal.filling here.segment (p.captures.get here.segment).length visit text)
      (Move.search q (here.cursor q.input) p
        (.capture label taken child ((here.cursor q.input).skip (i - here.position)))) := by
  have hfill := h.filling htext here.segment (p.captures.get here.segment).length
  rw [Node.map_fill_search] at hfill
  rw [Move.search, Location.skip_cursor hin, Nat.add_sub_cancel' hle]
  exact hfill

/-- The spans of a wildcard are tried from the shortest one on. -/
theorem realizes_wildcard (w : Wildcard) {visit : Location → TraversalM α (Option α)}
    (hin : here.IsIn q.input)
    (h : ∀ i, here.position ≤ i → i ≤ q.input.stop here.segment → ∀ p,
      Realizes p (visit { here with position := i })
        (child.search q (Location.cursor q.input { here with position := i }) p)) :
    Realizes p (wildcard q w here visit)
      (Attempt.first (Move.search q (here.cursor q.input) p)
        ((List.range' w.minWords ((here.cursor q.input).ahead.length + 1 - w.minWords)).map
          fun k => .capture w.symbol (Node.takenText q ((here.cursor q.input).ahead.take k)) child
            ((here.cursor q.input).skip k))) := by
  have hlength := Location.length_ahead hin
  have hstop := hin.2
  rw [wildcard, Attempt.first_map]
  split
  · next hgt =>
    -- fewer words are ahead than the wildcard needs
    rw [show (here.cursor q.input).ahead.length + 1 - w.minWords = 0 by omega]
    exact .pure_none
  · next hle =>
    rw [Attempt.first_range'_add _ here.position,
      show (here.cursor q.input).ahead.length + 1 - w.minWords =
        q.input.stop here.segment + 1 - (here.position + w.minWords) by omega]
    refine .capture (.findSomeM? fun i hi => ?_)
    rw [List.mem_range'_1] at hi
    refine .taking hin (by omega) (h i (by omega) (by omega) _) fun t => ?_
    split
    · next heq =>
      rw [heq, Nat.sub_self, List.take_zero]
      rfl
    · next hne =>
      have hlt : 0 < ((here.cursor q.input).ahead.take (i - here.position)).length := by
        rw [List.length_take]
        omega
      rw [run_map, run_span_ahead hin (by omega) (by omega),
        Node.takenText_of_ne_nil q (List.ne_nil_of_length_pos hlt)]

/-- The phrases of a set are tried from the longest one on. -/
theorem realizes_phrases (name : String) {visit : Location → TraversalM α (Option α)}
    (hin : here.IsIn q.input)
    (h : ∀ i, here.position ≤ i → i ≤ q.input.stop here.segment → ∀ p,
      Realizes p (visit { here with position := i })
        (child.search q (Location.cursor q.input { here with position := i }) p)) :
    Realizes p (phrases q name here visit)
      (Attempt.first (Move.search q (here.cursor q.input) p)
        (match q.sets.get? name with
        | none => [.unknownSet name]
        | some set => Node.phraseMoves name set child (here.cursor q.input))) := by
  have hlength := Location.length_ahead hin
  have hstop := hin.2
  rw [phrases]
  cases hset : q.sets.get? name with
  | none =>
    rintro t rfl
    exact ⟨t.records, rfl⟩
  | some set =>
    refine Realizes.bind (c := q.input.stop here.segment - here.position) (fun t => ?_) ?_
    · rw [run_distance, if_pos hstop]
    · dsimp only
      -- the traversal counts down where a phrase ends, the search how many words it has
      rw [Node.phraseMoves, Attempt.first_map, Attempt.first_filter, hlength]
      split
      -- a set whose phrases are all too long is tried nowhere
      · next hzero =>
        rw [hzero]
        exact .pure_none
      · rw [Attempt.first_reverse_range'_add _ here.position]
        refine .capture (.findSomeM? fun i hi => ?_)
        rw [List.mem_reverse, List.mem_range'_1] at hi
        have hle : here.position ≤ i := by omega
        have hstop : i ≤ q.input.stop here.segment := by omega
        refine Realizes.bind (run_span_ahead hin hle hstop) ?_
        split
        · exact .taking hin hle (h i hle hstop _) fun t => rfl
        · exact .pure_none

/-- The priority edge of the word at the location, if there is one. -/
theorem realizes_preferred (hin : here.IsIn q.input) (h : BelowRealizes q n here visit) :
    Realizes p (preferred q n here visit)
      (Attempt.first (Move.search q (here.cursor q.input) p)
        (n.priorityMoves q (here.cursor q.input))) := by
  rw [preferred, Node.priorityMoves]
  -- behind the last word of a segment there is no word to compare
  by_cases hlt : here.position < q.input.stop here.segment
  · obtain ⟨w, hword, hahead⟩ := Location.exists_ahead hin hlt
    rw [if_pos hlt, hahead]
    refine Realizes.bind (c := w) (fun t => by rw [run_wordAt, hword]) ?_
    dsimp only
    split
    · next hnone =>
      rw [hnone]
      exact .pure_none
    · next t child hedge =>
      simp only [hedge]
      rw [Attempt.first_singleton]
      exact (h.within hin _ _ (by omega) (by omega) _).step
  · rw [if_neg hlt, Location.ahead_eq_nil hin hlt]
    exact .pure_none

/-- The edge of a wildcard, if there is one. -/
theorem realizes_wildcardEdge (w : Wildcard) (hin : here.IsIn q.input)
    (h : BelowRealizes q n here visit) :
    Realizes p (wildcardEdge q w n here visit)
      (Attempt.first (Move.search q (here.cursor q.input) p)
        (n.wildcardMoves q w (here.cursor q.input))) := by
  rw [wildcardEdge, Node.wildcardMoves]
  split
  · next hnone =>
    rw [hnone]
    exact .pure_none
  · next t child hedge =>
    simp only [hedge]
    exact realizes_wildcard w hin (h.within hin _)

/-- The literal edge of the word at the location, or that of the separator behind the segment. -/
theorem realizes_plain (hin : here.IsIn q.input) (h : BelowRealizes q n here visit) :
    Realizes p (plain q n here visit)
      (Attempt.first (Move.search q (here.cursor q.input) p)
        (n.plainMoves q (here.cursor q.input))) := by
  rw [plain, Node.plainMoves]
  by_cases hlt : here.position < q.input.stop here.segment
  · obtain ⟨w, hword, hahead⟩ := Location.exists_ahead hin hlt
    rw [if_pos hlt, hahead]
    refine Realizes.bind (c := w) (fun t => by rw [run_wordAt, hword]) ?_
    dsimp only
    split
    · exact .pure_none
    · split
      · next hnone =>
        rw [hnone]
        exact .pure_none
      · next t child hedge =>
        simp only [hedge]
        rw [Attempt.first_singleton]
        exact (h.within hin _ _ (by omega) (by omega) _).step
  · rw [if_neg hlt, Location.ahead_eq_nil hin hlt]
    dsimp only
    rw [show (here.cursor q.input).segment = here.segment from rfl]
    cases hseparator : here.segment.separator? with
    | none => exact .pure_none
    | some separator =>
      dsimp only
      split
      · next hnone =>
        rw [hnone]
        exact .pure_none
      · next t child hedge =>
        simp only [hedge]
        rw [Attempt.first_singleton]
        -- at the end of the segment the separator is read instead of a word
        have hacross := hin.across hlt hseparator
        have hbelow := h child (Node.sizeOf_lt_of_child? hedge) _ hacross.1 hacross.2
          (p.along separator)
        rw [Location.cursor_across hin hlt hseparator] at hbelow
        exact hbelow.step

/-- To go through a list by its members is to go through the list. -/
theorem flatMap_attach (l : List β) (f : β → List γ) :
    l.attach.flatMap (fun x => f x.1) = l.flatMap f := by
  rw [← List.flatMap_map, List.attach_map_subtype_val]

/-- The edges of the sets, in their order, if a word is ahead. -/
theorem realizes_setEdges (hin : here.IsIn q.input) (h : BelowRealizes q n here visit) :
    Realizes p
      (if here.position < q.input.stop here.segment then setEdges q n here visit else pure none)
      (Attempt.first (Move.search q (here.cursor q.input) p)
        (n.setMoves q (here.cursor q.input))) := by
  rw [Node.setMoves]
  by_cases hlt : here.position < q.input.stop here.segment
  · obtain ⟨w, -, hahead⟩ := Location.exists_ahead hin hlt
    have hne : ¬(here.cursor q.input).ahead.isEmpty = true := by
      rw [hahead]
      exact Bool.false_ne_true
    rw [if_pos hlt, if_neg hne, setEdges, ← flatMap_attach n.sets]
    exact .flatMap fun edge _ => realizes_phrases edge.1.1 hin (h.within hin _)
  · rw [if_neg hlt, Location.ahead_eq_nil hin hlt]
    exact .pure_none

end Moves

/-! ## Visiting nodes -/

/-- To begin a visit in time is to report it at most. -/
theorem Realizes.enter {q : TimedQuery} {here : Location} {outer : List Location} {p : Progress}
    {act : TraversalM α (Option α)} {a : Attempt (Way α)} (hlate : ∀ k, q.late k = false)
    (h : Realizes p act a) :
    Realizes p (do Traversal.enter q here outer; act)
      (a.after
        (if q.traceVisits then [.searchStep (unwords p.trail) here.position] else [])) := by
  rintro t rfl
  obtain ⟨records, hrun⟩ := h
    { t with
      events := t.events ++ if q.traceVisits then
        [.searchStep (unwords t.progress.trail) here.position] else []
      records := t.records ++ [{ location := here, outer }] } rfl
  refine ⟨records, ?_⟩
  rw [EStateM.run_bind, run_enter, hlate, if_neg Bool.false_ne_true]
  dsimp only
  rw [hrun, Attempt.after, List.append_assoc]

/-- An entry at the end of the words ends the search. -/
theorem realizes_accept (entry : α) (here : Location) (outer : List Location) (p : Progress) :
    Realizes p (accept entry here outer)
      { events := [], found? := some { entry, progress := p } } := by
  rintro t rfl
  exact ⟨_, by rw [List.append_nil]; rfl⟩

/-- A visit in time is a search from the node. -/
theorem realizes_traverse (q : TimedQuery) (hlate : ∀ k, q.late k = false) (n : Node α)
    {here : Location} (outer : List Location) (hin : here.IsIn q.input) (p : Progress) :
    Realizes p (n.traverse q here outer) (n.search q.toQuery (here.cursor q.input) p) := by
  -- induction on the node; every edge leads to a smaller one, with its own progress
  induction hsize : sizeOf n using Nat.strongRecOn generalizing n here outer p with
  | _ size ih =>
    subst hsize
    have hbelow : BelowRealizes q.toQuery n here
        fun child _ there => child.traverse q there (here :: outer) :=
      fun child hlt there _ hthere p => ih _ hlt child (here :: outer) hthere p rfl
    rw [Node.traverse, Node.search_eq, Location.position_cursor hin]
    refine Realizes.enter hlate ?_
    simp only [Location.atEnd_cursor hin]
    cases hentry : if here.position = q.input.words.length then n.value? else none with
    | some entry => exact realizes_accept entry here outer p
    | none =>
      dsimp only
      -- one group of moves for each group of edges, in the order in which they are tried
      rw [edges, Node.moves, Attempt.first_append, Attempt.first_append, Attempt.first_append,
        Attempt.first_append, Attempt.first_append, Attempt.first_append]
      refine .findSomeM?_cons (realizes_preferred hin hbelow) ?_
      refine .findSomeM?_cons (realizes_wildcardEdge _ hin hbelow) ?_
      refine .findSomeM?_cons (realizes_wildcardEdge _ hin hbelow) ?_
      refine .findSomeM?_cons (realizes_plain hin hbelow) ?_
      refine .findSomeM?_cons (realizes_setEdges hin hbelow) ?_
      refine .findSomeM?_cons (realizes_wildcardEdge _ hin hbelow) ?_
      rw [← Attempt.orElse_nothing (Attempt.first _ (n.wildcardMoves _ .oneOrMore _))]
      exact .findSomeM?_cons (realizes_wildcardEdge _ hin hbelow) .pure_none

/-- If the time is up, a visit reports this and does nothing more. -/
theorem run_traverse_late {q : TimedQuery} (hlate : ∀ k, q.late k = true) (n : Node α)
    (here : Location) (outer : List Location) (t : Traversal α) :
    ∃ records, (n.traverse q here outer).run t =
      .error (.abort .timeout)
        { t with events := t.events ++ [.searchTimeout q.input.render], records } := by
  refine ⟨t.records ++ [{ location := here, outer }], ?_⟩
  rw [Node.traverse, EStateM.run_bind, run_enter, hlate, if_pos rfl]

/-! ## Several graphs -/

/-- Whether a traversal ends as a search does, with the same match or for the same cause, and has
reported the same after what was reported before. -/
def SearchResult.Agrees (r : SearchResult α) (before : List Event) :
    EStateM.Result Halt (Traversal α) (Option (Found α)) → Prop
  | .ok found? t => r.result = .ok found? ∧ t.events = before ++ r.events
  | .error (.abort cause) t => r.result = .error cause ∧ t.events = before ++ r.events
  | .error .outOfRange _ => False

/-- What was reported in between counts for a search that goes on. -/
theorem SearchResult.Agrees.after {r : SearchResult α} {before events : List Event}
    {ended : EStateM.Result Halt (Traversal α) (Option (Found α))}
    (h : r.Agrees (before ++ events) ended) :
    SearchResult.Agrees { r with events := events ++ r.events } before ended := by
  rcases ended with ⟨found?, t⟩ | ⟨cause | _, t⟩
  · exact ⟨h.1, by rw [h.2, List.append_assoc]⟩
  · exact ⟨h.1, by rw [h.2, List.append_assoc]⟩
  · exact h

/-- Graph after graph, with what the failed ones have reported before. -/
theorem agrees_traverseFrom (options : SearchOptions) (input : Input) (root : Nat)
    (graphs : List (Graph α)) (t : Traversal α) :
    (searchFrom options input root graphs).Agrees t.events
      ((traverseFrom options (fun _ => options.expired) input root graphs).run t) := by
  induction graphs generalizing root t with
  | nil => exact ⟨rfl, (List.append_nil _).symm⟩
  | cons g graphs ih =>
    rw [searchFrom, traverseFrom, EStateM.run_bind, EStateM.run_modify]
    dsimp only
    rw [EStateM.run_bind]
    -- if the time is up, the first node is reached and nothing more
    by_cases hexpired : options.expired = true
    · obtain ⟨records, hrun⟩ := run_traverse_late
        (q := options.timedQuery (fun _ => options.expired) input g.comparer)
        (fun _ => hexpired) g.root { segment := .message, position := 0 } []
        { t with progress := {} }
      rw [hrun, if_pos hexpired]
      exact ⟨rfl, rfl⟩
    · let q := options.timedQuery (fun _ => options.expired) input g.comparer
      have hvisit : Realizes {} _ (g.root.search q.toQuery (.startOf input .message) {}) :=
        realizes_traverse q (fun _ => Bool.eq_false_iff.2 hexpired) g.root []
          ((IsDescent.start input).isIn _ List.mem_cons_self) {}
      obtain ⟨records, hrun⟩ := hvisit { t with progress := {} } rfl
      rw [if_neg hexpired, hrun, show Query.mk _ _ _ _ _ = q.toQuery from rfl]
      cases (g.root.search q.toQuery (.startOf input .message) {}).found? with
      | some way => exact ⟨rfl, rfl⟩
      | none => exact (ih (root + 1) _).after

/-- With the time up or not, a traversal of several graphs is a search of them. -/
theorem agrees_traverse (options : SearchOptions) (graphs : List (Graph α)) (input : Input)
    (t : Traversal α) :
    (search options graphs input).Agrees t.events
      ((traverse options (fun _ => options.expired) graphs input).run t) := by
  have hfrom := agrees_traverseFrom options input 0 graphs
  rw [search, traverse]
  by_cases hdepth : options.depth > options.recursionLimit
  · simp only [if_pos hdepth]
    exact ⟨rfl, rfl⟩
  · simp only [if_neg hdepth]
    by_cases hpath : options.trace.path = true
    · simp only [if_pos hpath]
      exact (hfrom { t with events := t.events ++ [.normalizedPath input.render] }).after
    · simp only [if_neg hpath]
      exact hfrom t

/-- A search, as it is done in place, never leaves the segment that it is in. Whatever the graphs,
the input and the clock, it reads no word that the input does not have, and all that it does is on a
way through the input, which gets from one segment into the next only at the separator between them.
An entry is accepted at the end only, behind both separators, and only such an entry is found. -/
theorem search_stays_in_segments (options : SearchOptions) (graphs : List (Graph α))
    (input : Input) :
    (search options graphs input).Agrees []
        ((traverse options (fun _ => options.expired) graphs input).run {}) ∧
      ∀ late : Nat → Bool,
        match (traverse options late graphs input).run {} with
        | .ok found? t =>
          Accepted Found.entry found? t.records ∧ ∀ r ∈ t.records, r.Lawful input
        | .error halt t => halt ≠ .outOfRange ∧ ∀ r ∈ t.records, r.Lawful input := by
  -- the first part is about a clock that stands still, the second about any clock
  refine ⟨agrees_traverse options graphs input {}, fun late => ?_⟩
  have hkeeps := keepsTo_traverse_graphs options late graphs input {} (List.forall_mem_nil _)
  cases hrun : (traverse options late graphs input).run {} with
  | ok found? t =>
    rw [hrun] at hkeeps
    exact hkeeps
  | error halt t =>
    rw [hrun] at hkeeps
    exact hkeeps

end Parley
