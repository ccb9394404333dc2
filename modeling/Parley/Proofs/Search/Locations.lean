import Mathlib.Data.List.Chain
import Parley.Traversal

/-!
# Where a traversal goes

A traversal reads words by their numbers, and it takes the end of a segment for the place of a
separator. The graph does not have to be right for this: the paths in it can lack separators, repeat
them or have them anywhere, and an input can have words that look like them. The position keeps to
its segment all the same, because only a separator leads out of it, which is looked for at the end
of the segment only.

Main results:

* `IsDescent.cons` — a location that is in its segment and next to the last one goes on the way;
* `IsDescent.crosses` — to get into a segment, a way crosses the separators in front of it;
* `keepsTo_traverse` — a visit keeps to its segment, by induction on the node;
* `keepsTo_traverse_graphs` — the same of several graphs.
-/

namespace Parley

open Text Traversal

variable {α β γ : Type} {input : Input}

/-! ## Ways through an input -/

/-- Whether a location is in its segment: at a word or at the end. -/
def Location.IsIn (input : Input) (l : Location) : Prop :=
  input.start l.segment ≤ l.position ∧ l.position ≤ input.stop l.segment

/-- Whether one location can be next to another one. It is in the same segment and not before it,
or it is right behind the separator that the other one is at. -/
inductive Location.Next (input : Input) : Location → Location → Prop where
  | within {s : Segment} {i j : Nat} (le : i ≤ j) :
      Next input { segment := s, position := i } { segment := s, position := j }
  | across {s : Segment} {separator : String} (behind : s.separator? = some separator)
      (word : input.words[input.stop s]? = some separator) :
      Next input { segment := s, position := input.stop s }
        { segment := s.advance, position := input.stop s + 1 }

/-- Whether locations, the last one first, are a way from the first word of an input. -/
structure IsDescent (input : Input) (way : List Location) : Prop where
  isIn : ∀ l ∈ way, l.IsIn input
  next : way.IsChain fun l before => Location.Next input before l
  begins : way.getLast? = some { segment := .message, position := 0 }

/-- Whether a way, the last location first, crosses the separator behind a segment. -/
def Crosses (input : Input) (way : List Location) (s : Segment) : Prop :=
  [{ segment := s.advance, position := input.stop s + 1 },
    { segment := s, position := input.stop s }] <:+: way

/-- What holds of everything that a traversal does. It is on a way through the input, and an entry
is accepted at the end only, behind both separators. -/
structure Record.Lawful (input : Input) (r : Record α) : Prop where
  descent : IsDescent input (r.location :: r.outer)
  accepted : r.accepted?.isSome →
    r.location = { segment := .topic, position := input.words.length } ∧
      Crosses input (r.location :: r.outer) .message ∧
        Crosses input (r.location :: r.outer) .that

/-! ## Segments in the words -/

namespace Input

/-- Every segment ends in the words. -/
theorem stop_le_length_words (input : Input) (s : Segment) : input.stop s ≤ input.words.length := by
  rw [length_words]
  cases s <;> simp only [stop, start, segment] <;> omega

/-- The word at the end of a segment is the separator behind it. -/
theorem getElem?_words_stop {s : Segment} {separator : String} (input : Input)
    (h : s.separator? = some separator) : input.words[input.stop s]? = some separator := by
  cases s with
  | message =>
    obtain rfl : Token.thatSeparator = separator := Option.some.inj h
    simp [words, stop, start, segment]
  | that =>
    obtain rfl : Token.topicSeparator = separator := Option.some.inj h
    have hstop : input.stop .that = input.message.length + (input.that.length + 1) := by
      simp only [stop, start, segment]
      omega
    rw [hstop, words, List.getElem?_append_right (by omega), Nat.add_sub_cancel_left,
      List.getElem?_cons_succ, List.getElem?_append_right (by omega), Nat.sub_self]
    rfl
  | topic => cases h

end Input

/-- No separator follows the topic. -/
theorem Segment.ne_topic_of_separator? {s : Segment} {separator : String}
    (h : s.separator? = some separator) : s ≠ .topic := by
  rintro rfl
  cases h

/-! ## Going on -/

namespace Location.IsIn

variable {here : Location}

/-- The end of the words is in the last segment only. -/
theorem eq_topic (h : here.IsIn input) (hend : here.position = input.words.length) :
    here.segment = .topic := by
  have hstop := h.2
  rw [hend, Input.length_words] at hstop
  cases hsegment : here.segment with
  | topic => rfl
  | message =>
    rw [hsegment] at hstop
    simp only [Input.stop, Input.start, Input.segment] at hstop
    omega
  | that =>
    rw [hsegment] at hstop
    simp only [Input.stop, Input.start, Input.segment] at hstop
    omega

/-- A later position in the same segment. -/
theorem within (h : here.IsIn input) {i : Nat} (hle : here.position ≤ i)
    (hstop : i ≤ input.stop here.segment) : Location.IsIn input { here with position := i } :=
  ⟨h.1.trans hle, hstop⟩

/-- Behind the separator at the end of a segment, the start of the next one is next. -/
theorem across (h : here.IsIn input) (hend : ¬here.position < input.stop here.segment)
    {separator : String} (hseparator : here.segment.separator? = some separator) :
    here.Next input { segment := here.segment.advance, position := here.position + 1 } ∧
      Location.IsIn input
        { segment := here.segment.advance, position := here.position + 1 } := by
  obtain ⟨s, i⟩ := here
  obtain rfl : i = input.stop s := Nat.le_antisymm h.2 (Nat.le_of_not_lt hend)
  have hstart : input.start s.advance = input.stop s + 1 :=
    input.start_advance (Segment.ne_topic_of_separator? hseparator)
  have hle := input.start_le_stop s.advance
  refine ⟨.across hseparator (input.getElem?_words_stop hseparator), Nat.le_of_eq hstart, ?_⟩
  show input.stop s + 1 ≤ input.stop s.advance
  omega

end Location.IsIn

namespace IsDescent

variable {here there : Location} {way : List Location}

/-- The way that has only its start. -/
theorem start (input : Input) : IsDescent input [{ segment := .message, position := 0 }] where
  isIn l hl := by
    rw [List.mem_singleton] at hl
    subst hl
    exact ⟨Nat.le_refl _, Nat.zero_le _⟩
  next := .singleton _
  begins := rfl

/-- A location that is in its segment and next to the last one goes on the way. -/
theorem cons (h : IsDescent input (here :: way)) (hnext : here.Next input there)
    (hin : there.IsIn input) : IsDescent input (there :: here :: way) where
  isIn := List.forall_mem_cons.2 ⟨hin, h.isIn⟩
  next := .cons_cons hnext h.next
  begins := by rw [List.getLast?_cons_cons, h.begins]

/-- At the end of the words a way is in the last segment. -/
theorem eq_topic (h : IsDescent input (here :: way)) (hend : here.position = input.words.length) :
    here = { segment := .topic, position := input.words.length } := by
  have hsegment := (h.isIn here List.mem_cons_self).eq_topic hend
  rw [← hsegment, ← hend]

end IsDescent

/-- The segments in front of a segment. -/
def Segment.before : Segment → List Segment
  | .message => []
  | .that => [.message]
  | .topic => [.message, .that]

/-- In front of the next segment there is one more. -/
theorem Segment.before_advance {s : Segment} (h : s.separator?.isSome) :
    s.advance.before = s.before ++ [s] := by
  cases s with
  | message => rfl
  | that => rfl
  | topic => cases h

/-- A separator that was crossed stays crossed. -/
theorem Crosses.cons {way : List Location} {s : Segment} (h : Crosses input way s)
    (l : Location) : Crosses input (l :: way) s :=
  h.trans (List.suffix_cons l way).isInfix

/-- To get into a segment, a way crosses the separators in front of it. -/
theorem IsDescent.crosses {here : Location} {way : List Location}
    (h : IsDescent input (here :: way)) :
    ∀ s ∈ here.segment.before, Crosses input (here :: way) s := by
  -- induction on the way back to the first word
  induction way generalizing here with
  | nil =>
    obtain rfl := Option.some.inj h.begins
    intro s hs
    cases hs
  | cons before way ih =>
    have hbefore : IsDescent input (before :: way) :=
      { isIn := fun l hl => h.isIn l (List.mem_cons_of_mem here hl)
        next := h.next.tail
        begins := by rw [← h.begins, List.getLast?_cons_cons] }
    have hnext : before.Next input here := (List.isChain_cons_cons.1 h.next).1
    intro s hs
    cases hnext with
    | within le => exact (ih hbefore s hs).cons _
    | @across s' separator behind word =>
      rw [Segment.before_advance (by rw [behind]; rfl), List.mem_append,
        List.mem_singleton] at hs
      rcases hs with hs | rfl
      · exact (ih hbefore s hs).cons _
      · exact (List.prefix_append [_, _] way).isInfix

/-! ## Computations that keep to the input -/

/-- Whether a computation reads nothing that the input does not have and does nothing off the ways
through the input, and what holds of its result and of the records at the end. -/
def KeepsTo (input : Input) (act : TraversalM α γ) (result : γ → List (Record α) → Prop) : Prop :=
  ∀ t : Traversal α, (∀ r ∈ t.records, r.Lawful input) →
    match act.run t with
    | .ok c t' => result c t'.records ∧ ∀ r ∈ t'.records, r.Lawful input
    | .error e t' => e ≠ .outOfRange ∧ ∀ r ∈ t'.records, r.Lawful input

/-- Whether the entry of what was found, if anything was, has been accepted last. -/
def Accepted (entry : β → α) : Option β → List (Record α) → Prop
  | none, _ => True
  | some b, records => ∃ r, records.getLast? = some r ∧ r.accepted? = some (entry b)

section Keeping

variable {result : γ → List (Record α) → Prop} {entry : β → α}

/-- A result that is allowed, and nothing is done. -/
theorem KeepsTo.pure {c : γ} (h : ∀ records, result c records) :
    KeepsTo input (pure c : TraversalM α γ) result :=
  fun t ht => ⟨h t.records, ht⟩

/-- Where nothing was found, nothing need have been accepted. -/
theorem KeepsTo.pure_none : KeepsTo input (Pure.pure none) (Accepted entry) :=
  .pure fun _ => trivial

/-- What holds after the first computation may be used for the second. -/
theorem KeepsTo.bind {δ : Type} {x : TraversalM α γ} {f : γ → TraversalM α δ}
    {result' : δ → List (Record α) → Prop} (hx : KeepsTo input x result)
    (hf : ∀ c records, result c records → KeepsTo input (f c) result') :
    KeepsTo input (x >>= f) result' := by
  intro t ht
  have hrun := hx t ht
  rw [EStateM.run_bind]
  cases h : x.run t with
  | error e t' =>
    rw [h] at hrun
    exact hrun
  | ok c t' =>
    rw [h] at hrun
    exact hf c t'.records hrun.1 t' hrun.2

/-- The first that finds something is the last that is tried. -/
theorem KeepsTo.findSomeM? {δ : Type} {f : δ → TraversalM α (Option β)} {l : List δ}
    (h : ∀ x ∈ l, KeepsTo input (f x) (Accepted entry)) :
    KeepsTo input (l.findSomeM? f) (Accepted entry) := by
  induction l with
  | nil => exact .pure_none
  | cons x l ih =>
    obtain ⟨hx, hl⟩ := List.forall_mem_cons.1 h
    intro t ht
    have hrun := hx t ht
    rw [List.findSomeM?_cons, EStateM.run_bind]
    cases hvisit : (f x).run t with
    | error e t' =>
      rw [hvisit] at hrun
      exact hrun
    | ok found? t' =>
      rw [hvisit] at hrun
      cases found? with
      | some b => exact hrun
      | none => exact ih hl t' hrun.2

/-- Trail and captures do not matter to where a traversal goes. -/
theorem keepsTo_modify (f : Progress → Progress) :
    KeepsTo input (modify fun t : Traversal α => { t with progress := f t.progress })
      fun _ _ => True :=
  fun _ ht => ⟨trivial, ht⟩

/-- Events do not matter. -/
theorem keepsTo_report (e : Event) :
    KeepsTo input (report e : TraversalM α Unit) fun _ _ => True :=
  fun _ ht => ⟨trivial, ht⟩

/-- A word is read where the input has one. -/
theorem keepsTo_wordAt {i : Nat} (h : i < input.words.length) :
    KeepsTo input (wordAt input i : TraversalM α String) fun _ _ => True := by
  intro t ht
  rw [run_wordAt, List.getElem?_eq_getElem h]
  exact ⟨trivial, ht⟩

/-- Words are taken between two positions of the input. -/
theorem keepsTo_span {i j : Nat} (hle : i ≤ j) (hlength : j ≤ input.words.length) :
    KeepsTo input (span input i j : TraversalM α (List String)) fun _ _ => True := by
  intro t ht
  rw [run_span, if_pos ⟨hle, hlength⟩]
  exact ⟨trivial, ht⟩

/-- The distance of two positions is what leads from the one to the other. -/
theorem keepsTo_distance {i j : Nat} (h : i ≤ j) :
    KeepsTo input (distance i j : TraversalM α Nat) fun k _ => i + k = j := by
  intro t ht
  rw [run_distance, if_pos h]
  exact ⟨Nat.add_sub_cancel' h, ht⟩

/-- Lawful records with one more of them are lawful. -/
theorem lawful_concat {records : List (Record α)} {last : Record α}
    (h : ∀ r ∈ records, r.Lawful input) (hlast : last.Lawful input) :
    ∀ r ∈ records ++ [last], r.Lawful input :=
  List.forall_mem_append.2 ⟨h, List.forall_mem_singleton.2 hlast⟩

/-- To enter a location is lawful if it lies on a way. -/
theorem keepsTo_enter {q : TimedQuery} {here : Location} {outer : List Location}
    (h : IsDescent input (here :: outer)) :
    KeepsTo input (enter q here outer : TraversalM α Unit) fun _ _ => True := by
  intro t ht
  have hvisited : ∀ r ∈ t.records ++ [{ location := here, outer }], r.Lawful input :=
    lawful_concat ht
      { descent := h, accepted := fun hnone => absurd hnone Bool.false_ne_true }
  rw [run_enter]
  dsimp only
  by_cases hlate : q.late t.records.length = true
  · rw [if_pos hlate]
    exact ⟨Halt.noConfusion, hvisited⟩
  · rw [if_neg hlate]
    exact ⟨trivial, hvisited⟩

/-- An entry is accepted at the end of the words, behind both separators. -/
theorem keepsTo_accept {here : Location} {outer : List Location} (entry : α)
    (h : IsDescent input (here :: outer)) (hend : here.position = input.words.length) :
    KeepsTo input (accept entry here outer) (Accepted id) := by
  intro t ht
  have heq := h.eq_topic hend
  have hcrosses := h.crosses
  rw [congrArg Location.segment heq] at hcrosses
  exact ⟨⟨_, List.getLast?_concat, rfl⟩, lawful_concat ht
    { descent := h
      accepted := fun _ => ⟨heq, hcrosses .message List.mem_cons_self,
        hcrosses .that (List.mem_cons_of_mem _ List.mem_cons_self)⟩ }⟩

end Keeping

/-! ## Going along edges -/

section Edges

variable {here : Location} {entry : β → α}

/-- Writing down a label and crossing it out again leaves the records alone. -/
theorem KeepsTo.step {visit : TraversalM α (Option β)}
    (h : KeepsTo input visit (Accepted entry)) (label : String) :
    KeepsTo input (step label visit) (Accepted entry) := by
  intro t ht
  have hrun := h { t with progress := t.progress.along label } ht
  rw [run_step]
  cases hvisit : visit.run { t with progress := t.progress.along label } with
  | error e t' =>
    rw [hvisit] at hrun
    exact hrun
  | ok found? t' =>
    rw [hvisit] at hrun
    cases found? <;> exact hrun

/-- To reserve a capture and to release it again leaves the records alone. -/
theorem KeepsTo.capture {attempt : Nat → TraversalM α (Option β)}
    (h : ∀ slot, KeepsTo input (attempt slot) (Accepted entry)) (label : String) (s : Segment) :
    KeepsTo input (capture label s attempt) (Accepted entry) := by
  intro t ht
  have hrun := h (t.progress.captures.get s).length
    { t with progress := (t.progress.reserve s).along label } ht
  rw [run_capture]
  dsimp only
  cases hattempt : (attempt (t.progress.captures.get s).length).run
      { t with progress := (t.progress.reserve s).along label } with
  | error e t' =>
    rw [hattempt] at hrun
    exact hrun
  | ok found? t' =>
    rw [hattempt] at hrun
    cases found? <;> exact hrun

/-- A text that is read for a capture changes nothing. -/
theorem KeepsTo.filling {visit : TraversalM α (Option β)} {text : TraversalM α String}
    (h : KeepsTo input visit (Accepted entry))
    (htext : ∀ t : Traversal α, ∃ taken, text.run t = .ok taken t) (s : Segment) (slot : Nat) :
    KeepsTo input (filling s slot visit text) (Accepted entry) := by
  intro t ht
  have hrun := h t ht
  rw [run_filling]
  cases hvisit : visit.run t with
  | error e t' =>
    rw [hvisit] at hrun
    exact hrun
  | ok found? t' =>
    rw [hvisit] at hrun
    cases found? with
    | none => exact hrun
    | some b =>
      obtain ⟨taken, htaken⟩ := htext t'
      dsimp only
      rw [htaken]
      exact hrun

/-- Wherever a wildcard takes the words from a position on to, it is in the segment. -/
theorem keepsTo_wildcard {q : Query} {visit : Location → TraversalM α (Option β)} (w : Wildcard)
    (h : ∀ i, here.position ≤ i → i ≤ q.input.stop here.segment →
      KeepsTo q.input (visit { here with position := i }) (Accepted entry)) :
    KeepsTo q.input (wildcard q w here visit) (Accepted entry) := by
  rw [wildcard]
  split
  · exact .pure_none
  · refine .capture (fun slot => .findSomeM? fun i hi => ?_) w.symbol here.segment
    rw [List.mem_range'_1] at hi
    have hle : here.position ≤ i := by omega
    have hstop : i ≤ q.input.stop here.segment := by omega
    split
    · exact (h i hle hstop).filling (fun t => ⟨_, rfl⟩) here.segment slot
    · refine (h i hle hstop).filling (fun t => ?_) here.segment slot
      rw [run_map, run_span, if_pos ⟨hle, hstop.trans (q.input.stop_le_length_words _)⟩]
      exact ⟨_, rfl⟩

/-- A set moves to positions in the segment of the location only. -/
theorem keepsTo_phrases {q : Query} {visit : Location → TraversalM α (Option β)} (name : String)
    (hin : here.IsIn q.input)
    (h : ∀ i, here.position ≤ i → i ≤ q.input.stop here.segment →
      KeepsTo q.input (visit { here with position := i }) (Accepted entry)) :
    KeepsTo q.input (phrases q name here visit) (Accepted entry) := by
  rw [phrases]
  split
  · exact fun t ht => ⟨trivial, ht⟩
  · next set hset =>
    refine (keepsTo_distance hin.2).bind fun ahead _ hahead => ?_
    dsimp only
    split
    · exact .pure_none
    · refine .capture (fun slot => .findSomeM? fun i hi => ?_) (Token.setLabel name) here.segment
      rw [List.mem_reverse, List.mem_range'_1] at hi
      have hle : here.position ≤ i := by omega
      -- a phrase that is as long as one of the set ends in the segment
      have hstop : i ≤ q.input.stop here.segment := by omega
      refine (keepsTo_span hle (hstop.trans (q.input.stop_le_length_words _))).bind fun ws _ _ => ?_
      split
      · exact (h i hle hstop).filling (fun t => ⟨_, rfl⟩) here.segment slot
      · exact .pure_none

end Edges

/-! ## Visiting nodes -/

section Nodes

variable {q : Query} {n : Node α} {here : Location} {visit : VisitBelow n}

/-- What the visits below a node have to keep to for its edges. -/
def BelowKeeps (q : Query) (n : Node α) (here : Location) (visit : VisitBelow n) : Prop :=
  ∀ child hlt there, here.Next q.input there → there.IsIn q.input →
    KeepsTo q.input (visit child hlt there) (Accepted id)

/-- Below an edge within the segment, the child is visited at a later position. -/
theorem BelowKeeps.within (h : BelowKeeps q n here visit) (hin : here.IsIn q.input)
    {child : Node α} (hlt : sizeOf child < sizeOf n) (i : Nat) (hle : here.position ≤ i)
    (hstop : i ≤ q.input.stop here.segment) :
    KeepsTo q.input (visit child hlt { here with position := i }) (Accepted id) :=
  h child hlt _ (.within hle) (hin.within hle hstop)

/-- A position inside its segment has a word. -/
theorem lt_length_words (hlt : here.position < q.input.stop here.segment) :
    here.position < q.input.words.length :=
  Nat.lt_of_lt_of_le hlt (q.input.stop_le_length_words _)

/-- The edges with priority words read the word at the location. -/
theorem keepsTo_preferred (hin : here.IsIn q.input) (h : BelowKeeps q n here visit) :
    KeepsTo q.input (preferred q n here visit) (Accepted id) := by
  rw [preferred]
  split
  · next hlt =>
    refine (keepsTo_wordAt (lt_length_words hlt)).bind fun w _ _ => ?_
    split
    · exact .pure_none
    · next t child hedge => exact (h.within hin _ _ (by omega) (by omega)).step t.text
  · exact .pure_none

/-- A wildcard reads words up to the end of the segment. -/
theorem keepsTo_wildcardEdge (w : Wildcard) (hin : here.IsIn q.input)
    (h : BelowKeeps q n here visit) :
    KeepsTo q.input (wildcardEdge q w n here visit) (Accepted id) := by
  rw [wildcardEdge]
  split
  · exact .pure_none
  · exact keepsTo_wildcard w (h.within hin _)

/-- Literal edges read a word, or cross the separator at the end of a segment. -/
theorem keepsTo_plain (hin : here.IsIn q.input) (h : BelowKeeps q n here visit) :
    KeepsTo q.input (plain q n here visit) (Accepted id) := by
  rw [plain]
  split
  · next hlt =>
    refine (keepsTo_wordAt (lt_length_words hlt)).bind fun w _ _ => ?_
    split
    · exact .pure_none
    · split
      · exact .pure_none
      · next t child hedge => exact (h.within hin _ _ (by omega) (by omega)).step t.text
  · next hend =>
    split
    · exact .pure_none
    · next separator hseparator =>
      split
      · exact .pure_none
      · have hacross := hin.across hend hseparator
        exact (h _ _ _ hacross.1 hacross.2).step separator

/-- The named sets take phrases at the location. -/
theorem keepsTo_setEdges (hin : here.IsIn q.input) (h : BelowKeeps q n here visit) :
    KeepsTo q.input (setEdges q n here visit) (Accepted id) := by
  rw [setEdges]
  exact .findSomeM? fun edge _ => keepsTo_phrases edge.1.1 hin (h.within hin _)

end Nodes

/-- A visit on a way through the input keeps to the input. -/
theorem keepsTo_traverse (q : TimedQuery) (n : Node α) {here : Location} {outer : List Location}
    (h : IsDescent q.input (here :: outer)) :
    KeepsTo q.input (n.traverse q here outer) (Accepted id) := by
  -- induction on the node; every edge leads to a smaller one, and goes on with the way
  induction hsize : sizeOf n using Nat.strongRecOn generalizing n here outer with
  | _ size ih =>
    subst hsize
    have hin := h.isIn here List.mem_cons_self
    have hbelow : BelowKeeps q.toQuery n here
        fun child _ there => child.traverse q there (here :: outer) :=
      fun child hlt there hnext hthere => ih _ hlt child (h.cons hnext hthere) rfl
    rw [Node.traverse]
    refine (keepsTo_enter h).bind fun _ _ _ => ?_
    split
    · next entry hentry =>
      split at hentry
      · next hend => exact keepsTo_accept entry h hend
      · cases hentry
    · exact .findSomeM? (forall_mem_edges (keepsTo_preferred hin hbelow)
        (fun w => keepsTo_wildcardEdge w hin hbelow) (keepsTo_plain hin hbelow)
        (keepsTo_setEdges hin hbelow) .pure_none)

/-! ## Several graphs -/

/-- All graphs one after the other, each from its root. -/
theorem keepsTo_traverseFrom (options : SearchOptions) (late : Nat → Bool) (input : Input)
    (root : Nat) (graphs : List (Graph α)) :
    KeepsTo input (traverseFrom options late input root graphs) (Accepted Found.entry) := by
  induction graphs generalizing root with
  | nil => exact .pure_none
  | cons g graphs ih =>
    rw [traverseFrom]
    refine KeepsTo.bind (keepsTo_modify fun _ => {}) fun _ _ _ => ?_
    intro t ht
    have hrun := keepsTo_traverse (options.timedQuery late input g.comparer) g.root
      (.start input) t ht
    rw [EStateM.run_bind]
    cases hvisit : (g.root.traverse (options.timedQuery late input g.comparer)
        { segment := .message, position := 0 } []).run t with
    -- a visit that is given up is given up for all graphs behind this one
    | error e t' =>
      rw [hvisit] at hrun
      exact hrun
    | ok found? t' =>
      rw [hvisit] at hrun
      cases found? with
      | none => exact ih (root + 1) t' hrun.2
      | some entry => exact hrun

/-- Whatever the graphs and the clock, a traversal keeps to the input. -/
theorem keepsTo_traverse_graphs (options : SearchOptions) (late : Nat → Bool)
    (graphs : List (Graph α)) (input : Input) :
    KeepsTo input (traverse options late graphs input) (Accepted Found.entry) := by
  have hfrom := keepsTo_traverseFrom options late input 0 graphs
  rw [traverse]
  split
  · exact (keepsTo_report _).bind fun _ _ _ t ht => ⟨Halt.noConfusion, ht⟩
  · dsimp only
    split
    · exact (keepsTo_report _).bind fun _ _ _ => hfrom
    · exact hfrom

end Parley
