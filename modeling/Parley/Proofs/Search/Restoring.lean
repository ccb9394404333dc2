import Parley.Proofs.Search.Matching
import Parley.Traversal

/-!
# Branches that lead nowhere

All branches of a traversal work on one trail and on one list of captures for each segment. A branch
that leads nowhere takes back what it added, and finds the capture that it reserved at the end of
its list again, because whatever was reserved behind it has been taken back before. A branch that
leads to an entry fills its capture on the way up, when there are others behind it already. So the
trail and the lists are what they were, or they have grown by the legs of the way to the entry.

Main results:

* `Restores.step`, `Restores.capture`, `Restores.filling` — each way of going along an edge restores
  what the visits behind the edge restore;
* `Progress.Grows.fill` — a leg of a wildcard or a set adds one capture, with its own words;
* `restores_traverse` — a visit restores, by induction on the node;
* `branches_leave_no_trace` — the same of every kind of branch.
-/

namespace Parley

open Text Traversal

variable {α β γ : Type}

/-! ## Legs of a way -/

/-- An edge on the way to an entry, with the words that go along it: those from one number up to
another one. -/
structure Leg where
  label : String
  segment : Segment
  start : Nat
  stop : Nat
  /-- Whether it is the edge of a wildcard or a set, which keeps what it takes. -/
  capturing : Bool
  deriving DecidableEq, Repr

namespace Leg

/-- The words of a leg. -/
def words (input : Input) (l : Leg) : List String :=
  (input.words.drop l.start).take (l.stop - l.start)

/-- What a leg adds to the captures of a segment. -/
def taken? (q : Query) (s : Segment) (l : Leg) : Option String :=
  if l.capturing = true ∧ s = l.segment then some (Node.takenText q (l.words q.input)) else none

end Leg

/-- The leg from a location up to the word with a number. -/
def Location.leg (here : Location) (label : String) (stop : Nat) (capturing : Bool) : Leg :=
  { label, segment := here.segment, start := here.position, stop, capturing }

/-- Whether some progress has grown by the given legs, and by nothing else. -/
structure Progress.Grows (q : Query) (p : Progress) (legs : List Leg) (p' : Progress) : Prop where
  trail : p'.trail = p.trail ++ legs.map Leg.label
  captures (s : Segment) : p'.captures.get s = p.captures.get s ++ legs.filterMap (Leg.taken? q s)

/-- Whether legs lead from a node and a location to an entry at the end of the input. -/
inductive Node.Leads (q : Query) : Node α → Location → List Leg → α → Prop where
  | accept {n : Node α} {here : Location} {entry : α} (value : n.value? = some entry)
      (stop : here.position = q.input.words.length) : Leads q n here [] entry
  | word {n child : Node α} {here : Location} {legs : List Leg} {entry : α} {text : String}
      {t : Token} (symbol : Wildcard.ofSymbol? text = none)
      (edge : n.child? q.comparer text = some (t, child))
      (rest : Leads q child { here with position := here.position + 1 } legs entry) :
      Leads q n here (here.leg t.text (here.position + 1) false :: legs) entry
  | separator {n child : Node α} {here : Location} {legs : List Leg} {entry : α}
      {separator : String} {t : Token} (behind : here.segment.separator? = some separator)
      (edge : n.child? q.comparer separator = some (t, child))
      (rest : Leads q child
        { segment := here.segment.advance, position := here.position + 1 } legs entry) :
      Leads q n here (here.leg separator (here.position + 1) false :: legs) entry
  | wildcard {n child : Node α} {here : Location} {legs : List Leg} {entry : α} {w : Wildcard}
      {t : Token} {stop : Nat} (edge : n.child? q.comparer w.symbol = some (t, child))
      (least : here.position + w.minWords ≤ stop) (most : stop ≤ q.input.stop here.segment)
      (rest : Leads q child { here with position := stop } legs entry) :
      Leads q n here (here.leg w.symbol stop true :: legs) entry
  | phrase {n child : Node α} {here : Location} {legs : List Leg} {entry : α} {name : String}
      {set : PhraseSet} {stop : Nat} (edge : (name, child) ∈ n.sets)
      (get : q.sets.get? name = some set) (least : here.position < stop)
      (most : stop ≤ q.input.stop here.segment)
      (contains : set.contains
        (unwords ((here.leg (Token.setLabel name) stop true).words q.input)) = true)
      (rest : Leads q child { here with position := stop } legs entry) :
      Leads q n here (here.leg (Token.setLabel name) stop true :: legs) entry

/-! ## Computations that take back what they add -/

/-- Whether a computation leaves trail and captures as they were if it finds nothing, and as the
relation says if it finds something. -/
def Restores (act : TraversalM α (Option β)) (found : Progress → β → Progress → Prop) : Prop :=
  ∀ t : Traversal α,
    match act.run t with
    | .ok none t' => t'.progress = t.progress
    | .ok (some b) t' => found t.progress b t'.progress
    | .error _ _ => True

/-- Whether a computation does not touch trail and captures and has a result with a property. -/
def Yields (act : TraversalM α γ) (result : γ → Prop) : Prop :=
  ∀ t : Traversal α,
    match act.run t with
    | .ok c t' => result c ∧ t'.progress = t.progress
    | .error _ _ => True

section Reading

variable {result : γ → Prop}

/-- A value that is there touches nothing. -/
theorem Yields.pure {c : γ} (h : result c) : Yields (pure c : TraversalM α γ) result :=
  fun _ => ⟨h, rfl⟩

/-- What is made of a result does not touch anything either. -/
theorem Yields.map {δ : Type} {act : TraversalM α γ} {f : γ → δ} {result' : δ → Prop}
    (h : Yields act result) (himp : ∀ c, result c → result' (f c)) :
    Yields (f <$> act) result' := by
  intro t
  have ht := h t
  rw [run_map]
  cases hrun : act.run t with
  | error e t' => trivial
  | ok c t' =>
    rw [hrun] at ht
    exact ⟨himp c ht.1, ht.2⟩

/-- Reading a word of the input touches nothing, and gives that word. -/
theorem yields_wordAt (input : Input) (i : Nat) :
    Yields (wordAt input i : TraversalM α String) fun w => input.words[i]? = some w := by
  intro t
  rw [run_wordAt]
  cases input.words[i]? with
  | none => trivial
  | some w => exact ⟨rfl, rfl⟩

/-- Reading some words in a row touches nothing, and gives words that are there. -/
theorem yields_span (input : Input) (i j : Nat) :
    Yields (span input i j : TraversalM α (List String)) fun ws =>
      j ≤ input.words.length ∧ ws = (input.words.drop i).take (j - i) := by
  intro t
  rw [run_span]
  by_cases h : i ≤ j ∧ j ≤ input.words.length
  · rw [if_pos h]
    exact ⟨⟨h.2, rfl⟩, rfl⟩
  · rw [if_neg h]
    trivial

/-- Counting the words up to a position touches nothing. -/
theorem yields_distance (i j : Nat) :
    Yields (distance i j : TraversalM α Nat) fun k => i + k = j := by
  intro t
  rw [run_distance]
  by_cases h : i ≤ j
  · rw [if_pos h]
    exact ⟨Nat.add_sub_cancel' h, rfl⟩
  · rw [if_neg h]
    trivial

/-- Entering a node is recorded, but neither on the trail nor in the captures. -/
theorem yields_enter (q : TimedQuery) (here : Location) (outer : List Location) :
    Yields (enter q here outer : TraversalM α Unit) fun _ => True := by
  intro t
  rw [run_enter]
  dsimp only
  by_cases h : q.late t.records.length = true
  · -- nothing is said about a search that is given up
    rw [if_pos h]
    trivial
  · rw [if_neg h]
    exact ⟨trivial, rfl⟩

end Reading

section Restoring

variable {found found' : Progress → β → Progress → Prop}

/-- What is restored is restored under a weaker relation. -/
theorem Restores.mono {act : TraversalM α (Option β)} (h : Restores act found)
    (himp : ∀ p b p', found p b p' → found' p b p') : Restores act found' := by
  intro t
  have ht := h t
  cases hrun : act.run t with
  | error e t' => trivial
  | ok found? t' =>
    rw [hrun] at ht
    cases found? with
    | none => exact ht
    | some b => exact himp _ _ _ ht

/-- What finds nothing at once has nothing to take back. -/
theorem Restores.pure_none : Restores (pure none : TraversalM α (Option β)) found :=
  fun _ => rfl

/-- A computation that reads something first restores if what it goes on with does. -/
theorem Restores.bind {x : TraversalM α γ} {f : γ → TraversalM α (Option β)} {result : γ → Prop}
    (hx : Yields x result) (hf : ∀ c, result c → Restores (f c) found) :
    Restores (x >>= f) found := by
  intro t
  have ht := hx t
  rw [EStateM.run_bind]
  cases hrun : x.run t with
  | error e t' => trivial
  | ok c t' =>
    rw [hrun] at ht
    have hc := hf c ht.1 t'
    rwa [ht.2] at hc

/-- **The first of several attempts that finds something restores,** because each attempt in vain
leaves to the next one what it found itself. -/
theorem Restores.findSomeM? {f : γ → TraversalM α (Option β)} {l : List γ}
    (h : ∀ x ∈ l, Restores (f x) found) : Restores (l.findSomeM? f) found := by
  induction l with
  | nil => exact .pure_none
  | cons x l ih =>
    obtain ⟨hx, hl⟩ := List.forall_mem_cons.1 h
    intro t
    have ht := hx t
    rw [List.findSomeM?_cons, EStateM.run_bind]
    cases hrun : (f x).run t with
    | error e t' => trivial
    | ok found? t' =>
      rw [hrun] at ht
      cases found? with
      | some b => exact ht
      | none =>
        -- the rest starts with the progress that was there at first
        have hrest := ih hl t'
        dsimp only at ht ⊢
        rwa [ht] at hrest

/-- The label that is put on the trail is taken off it if nothing is found. -/
theorem Restores.step {visit : TraversalM α (Option β)} (h : Restores visit found)
    (label : String) :
    Restores (step label visit) fun p b p' => found (p.along label) b p' := by
  intro t
  have ht := h { t with progress := t.progress.along label }
  rw [run_step]
  cases hrun : visit.run { t with progress := t.progress.along label } with
  | error e t' => trivial
  | ok found? t' =>
    rw [hrun] at ht
    cases found? with
    | some b => exact ht
    | none =>
      -- the visit has left the trail as it was, with the label at its end
      dsimp only at ht ⊢
      rw [ht, Progress.back_along]

/-- The label that is put on the trail and the capture that is reserved are taken back if nothing is
found. -/
theorem Restores.capture {attempt : Nat → TraversalM α (Option β)}
    {found : Nat → Progress → β → Progress → Prop}
    (h : ∀ slot, Restores (attempt slot) (found slot)) (label : String) (s : Segment) :
    Restores (capture label s attempt) fun p b p' =>
      found (p.captures.get s).length ((p.reserve s).along label) b p' := by
  intro t
  have ht := h (t.progress.captures.get s).length
    { t with progress := (t.progress.reserve s).along label }
  rw [run_capture]
  dsimp only
  cases hrun : (attempt (t.progress.captures.get s).length).run
      { t with progress := (t.progress.reserve s).along label } with
  | error e t' => trivial
  | ok found? t' =>
    rw [hrun] at ht
    cases found? with
    | some b => exact ht
    | none =>
      -- whatever was reserved behind it has been released, so that it is the last one again
      dsimp only at ht ⊢
      rw [ht, Progress.release_reserve]

/-- A capture is only filled once something is found. -/
theorem Restores.filling {visit : TraversalM α (Option β)} {text : TraversalM α String}
    (hvisit : Restores visit found) (s : Segment) (slot : Nat) (taken : String)
    (htext : Yields text (· = taken)) :
    Restores (filling s slot visit text) fun p b p' =>
      ∃ p₁, found p b p₁ ∧ p' = p₁.fill s slot taken := by
  intro t
  have ht := hvisit t
  rw [run_filling]
  -- the capture is filled in only after the visit has succeeded
  cases hrun : visit.run t with
  | error e t' => trivial
  | ok found? t' =>
    rw [hrun] at ht
    cases found? with
    | none => exact ht
    | some b =>
      have ht' := htext t'
      dsimp only
      cases hrun' : text.run t' with
      | error e t'' => trivial
      | ok taken' t'' =>
        rw [hrun'] at ht'
        obtain ⟨rfl, hprogress⟩ := ht'
        exact ⟨t'.progress, ht, by rw [hprogress]⟩

end Restoring

/-! ## Growing by one more leg -/

namespace Progress.Grows

variable {q : Query} {p p' : Progress} {legs : List Leg}

/-- Nothing has grown by no legs. -/
theorem refl (q : Query) (p : Progress) : p.Grows q [] p where
  trail := (List.append_nil _).symm
  captures _ := (List.append_nil _).symm

/-- The leg of a word or a separator adds to the trail only. -/
theorem along {label : String} (h : (p.along label).Grows q legs p') (here : Location)
    (stop : Nat) : p.Grows q (here.leg label stop false :: legs) p' where
  trail := by
    rw [h.trail, Progress.along, List.append_assoc, List.singleton_append]
    rfl
  captures s := h.captures s

/-- The leg of a wildcard or a set adds to the trail, and to the captures of its segment what the
words of the leg are taken for. What has been added behind it stays behind it. -/
theorem fill {label : String} {here : Location} (stop : Nat)
    (h : ((p.reserve here.segment).along label).Grows q legs p') :
    p.Grows q (here.leg label stop true :: legs)
      (p'.fill here.segment (p.captures.get here.segment).length
        (Node.takenText q ((here.leg label stop true).words q.input))) where
  trail := by
    show p'.trail = _
    rw [h.trail, Progress.along, Progress.reserve, List.append_assoc, List.singleton_append]
    rfl
  captures s := by
    have hcaptures : p'.captures.get s =
        (p.captures.reserve here.segment).get s ++ legs.filterMap (Leg.taken? q s) := h.captures s
    rw [Progress.fill, Captures.get_fill, hcaptures, Captures.get_reserve]
    by_cases hs : s = here.segment
    · -- the place that was reserved is right behind the captures that there were
      subst hs
      rw [if_pos rfl, if_pos rfl, List.append_assoc, List.singleton_append,
        List.set_append_right _ _ (Nat.le_refl _), Nat.sub_self, List.set_cons_zero]
      rw [List.filterMap_cons_some (by rw [Leg.taken?, if_pos ⟨rfl, rfl⟩])]
    · rw [if_neg hs, if_neg hs]
      rw [List.filterMap_cons_none (by rw [Leg.taken?, if_neg fun hleg => hs hleg.2])]

end Progress.Grows

/-- The relation for a computation that adds legs with a property. -/
def Adds (q : Query) (legsOf : List Leg → β → Prop) (p : Progress) (b : β) (p' : Progress) : Prop :=
  ∃ legs, legsOf legs b ∧ p.Grows q legs p'

/-! ## Going along one edge -/

section Edges

variable {q : Query} {here : Location} {legsOf : Location → List Leg → β → Prop}
  {visit : Location → TraversalM α (Option β)}

/-- Whether legs begin with the leg to a stop, and go on from there. -/
def Continues (here : Location) (label : String) (stop : Nat)
    (legsOf : Location → List Leg → β → Prop) (legs : List Leg) (b : β) : Prop :=
  ∃ rest, legs = here.leg label stop true :: rest ∧
    legsOf { here with position := stop } rest b

/-- **Along the edge of a word or a separator,** one leg is put in front of those behind it. -/
theorem restores_step {visit : TraversalM α (Option β)} {legsOf : List Leg → β → Prop}
    (h : Restores visit (Adds q legsOf)) (label : String) (here : Location) (stop : Nat) :
    Restores (step label visit) (Adds q fun legs b =>
      ∃ rest, legs = here.leg label stop false :: rest ∧ legsOf rest b) := by
  refine (h.step label).mono ?_
  rintro p b p' ⟨rest, hrest, hgrows⟩
  exact ⟨_, ⟨rest, rfl, hrest⟩, hgrows.along here stop⟩

/-- **Along the edge of a wildcard or a set,** one leg is put in front of those behind it, if each
attempt fills the capture that was reserved for it with the words of the leg. -/
theorem restores_capture {attempt : Nat → TraversalM α (Option β)} {label : String}
    {stops : Nat → Prop}
    (h : ∀ slot, Restores (attempt slot) fun p b p' => ∃ stop p₁, stops stop ∧
      Adds q (legsOf { here with position := stop }) p b p₁ ∧
        p' = p₁.fill here.segment slot
          (Node.takenText q ((here.leg label stop true).words q.input))) :
    Restores (capture label here.segment attempt) (Adds q fun legs b =>
      ∃ stop, stops stop ∧ Continues here label stop legsOf legs b) := by
  refine (Restores.capture h label here.segment).mono ?_
  rintro p b p' ⟨stop, p₁, hstop, ⟨rest, hrest, hgrows⟩, rfl⟩
  exact ⟨_, ⟨stop, hstop, rest, rfl, hrest⟩, hgrows.fill stop⟩

/-- A leg to a later position has words. -/
theorem words_ne_nil {input : Input} (here : Location) (label : String) {stop : Nat}
    (hlt : here.position < stop) (hle : stop ≤ input.words.length) :
    (here.leg label stop true).words input ≠ [] := by
  refine List.ne_nil_of_length_pos ?_
  simp only [Leg.words, Location.leg, List.length_take, List.length_drop]
  omega

/-- Every number of words that a wildcard tries restores, and a wildcard tries only numbers that it
may take and that the segment has. -/
theorem restores_wildcard (w : Wildcard)
    (h : ∀ there, Restores (visit there) (Adds q (legsOf there))) :
    Restores (wildcard q w here visit) (Adds q fun legs b =>
      ∃ stop, (here.position + w.minWords ≤ stop ∧ stop ≤ q.input.stop here.segment) ∧
        Continues here w.symbol stop legsOf legs b) := by
  rw [wildcard]
  split
  · exact .pure_none
  · refine restores_capture fun slot => .findSomeM? fun i hi => ?_
    rw [List.mem_range'_1] at hi
    refine ((h { here with position := i }).filling here.segment slot
      (Node.takenText q ((here.leg w.symbol i true).words q.input)) ?_).mono ?_
    · -- what the capture is filled with; the default stands for no words
      split
      · next heq =>
        refine .pure ?_
        rw [Leg.words, Location.leg, heq, Nat.sub_self, List.take_zero]
        rfl
      · next hne =>
        refine (yields_span q.input here.position i).map ?_
        rintro ws ⟨hle, rfl⟩
        exact (Node.takenText_of_ne_nil q (words_ne_nil here w.symbol (by omega) hle)).symm
    · rintro p b p' ⟨p₁, hadds, hfill⟩
      exact ⟨i, p₁, by omega, hadds, hfill⟩

/-- Every number of words that a set tries restores, and only phrases of the set are taken. -/
theorem restores_phrases (name : String)
    (h : ∀ there, Restores (visit there) (Adds q (legsOf there))) :
    Restores (phrases q name here visit) (Adds q fun legs b =>
      ∃ stop, (∃ set, q.sets.get? name = some set ∧ here.position < stop ∧
        stop ≤ q.input.stop here.segment ∧ set.contains (unwords
          ((here.leg (Token.setLabel name) stop true).words q.input)) = true) ∧
        Continues here (Token.setLabel name) stop legsOf legs b) := by
  rw [phrases]
  split
  · exact fun t => rfl
  · next set hset =>
    refine Restores.bind (yields_distance here.position (q.input.stop here.segment))
      fun ahead hahead => ?_
    dsimp only
    split
    · exact .pure_none
    · refine restores_capture fun slot => .findSomeM? fun i hi => ?_
      rw [List.mem_reverse, List.mem_range'_1] at hi
      -- the words are read to look for them in the set, and are what the capture is filled with
      refine Restores.bind (yields_span q.input here.position i) fun ws hws => ?_
      obtain ⟨hle, rfl⟩ := hws
      have htaken := Node.takenText_of_ne_nil q
        (words_ne_nil here (Token.setLabel name) (by omega) hle)
      split
      · next hcontains =>
        refine ((h { here with position := i }).filling here.segment slot _
          (.pure htaken.symm)).mono ?_
        rintro p b p' ⟨p₁, hadds, hfill⟩
        exact ⟨i, p₁, ⟨set, hset, by omega, by omega, hcontains⟩, hadds, hfill⟩
      · exact .pure_none

end Edges

/-! ## Visiting nodes -/

section Nodes

variable {q : Query} {n : Node α} {here : Location} {visit : VisitBelow n}

/-- Trying the preferred form of the next word restores. -/
theorem restores_preferred
    (h : ∀ child hlt there, Restores (visit child hlt there) (Adds q (child.Leads q there))) :
    Restores (preferred q n here visit) (Adds q (n.Leads q here)) := by
  rw [preferred]
  split
  · refine Restores.bind (yields_wordAt q.input here.position) fun w hw => ?_
    split
    · exact .pure_none
    · next t child hedge =>
      refine (restores_step (h child _ _) t.text here (here.position + 1)).mono ?_
      rintro p entry p' ⟨_, ⟨rest, rfl, hrest⟩, hgrows⟩
      exact ⟨_, .word (Comparer.ofSymbol?_eq_none_of_equals_preferred
        (Comparer.equals_self .exact ("$" ++ w))) hedge hrest, hgrows⟩
  · exact .pure_none

/-- Trying the edge of a wildcard restores. -/
theorem restores_wildcardEdge (w : Wildcard)
    (h : ∀ child hlt there, Restores (visit child hlt there) (Adds q (child.Leads q there))) :
    Restores (wildcardEdge q w n here visit) (Adds q (n.Leads q here)) := by
  rw [wildcardEdge]
  split
  · exact .pure_none
  · next t child hedge =>
    refine (restores_wildcard w (h child _)).mono ?_
    rintro p entry p' ⟨_, ⟨stop, ⟨hleast, hmost⟩, rest, rfl, hrest⟩, hgrows⟩
    exact ⟨_, .wildcard hedge hleast hmost hrest, hgrows⟩

/-- Trying the next word, or the separator at the end of a segment, restores. -/
theorem restores_plain
    (h : ∀ child hlt there, Restores (visit child hlt there) (Adds q (child.Leads q there))) :
    Restores (plain q n here visit) (Adds q (n.Leads q here)) := by
  rw [plain]
  split
  · -- a word is ahead
    refine Restores.bind (yields_wordAt q.input here.position) fun w hw => ?_
    split
    · exact .pure_none
    · next hreserved =>
      split
      · exact .pure_none
      · next t child hedge =>
        refine (restores_step (h child _ _) t.text here (here.position + 1)).mono ?_
        rintro p entry p' ⟨_, ⟨rest, rfl, hrest⟩, hgrows⟩
        exact ⟨_, .word (Comparer.ofSymbol?_eq_none_of_equals (q.comparer.equals_self w)
          ((Bool.not_eq_true _).mp hreserved)) hedge hrest, hgrows⟩
  · -- the segment is at its end
    split
    · exact .pure_none
    · next separator hseparator =>
      split
      · exact .pure_none
      · next t child hedge =>
        refine (restores_step (h child _ _) separator here (here.position + 1)).mono ?_
        rintro p entry p' ⟨_, ⟨rest, rfl, hrest⟩, hgrows⟩
        exact ⟨_, .separator hseparator hedge hrest, hgrows⟩

/-- Trying the edges of all sets restores. -/
theorem restores_setEdges
    (h : ∀ child hlt there, Restores (visit child hlt there) (Adds q (child.Leads q there))) :
    Restores (setEdges q n here visit) (Adds q (n.Leads q here)) := by
  rw [setEdges]
  refine .findSomeM? fun edge _ => (restores_phrases edge.1.1 (h edge.1.2 _)).mono ?_
  rintro p entry p' ⟨_, ⟨stop, ⟨set, hset, hleast, hmost, hcontains⟩, rest, rfl, hrest⟩, hgrows⟩
  exact ⟨_, .phrase edge.2 hset hleast hmost hcontains hrest, hgrows⟩

end Nodes

/-- A visit of a node takes back what it adds, or adds the legs of a way from the node. -/
theorem restores_traverse (q : TimedQuery) (n : Node α) (here : Location) (outer : List Location) :
    Restores (n.traverse q here outer) (Adds q.toQuery (n.Leads q.toQuery here)) := by
  -- induction on the node; every edge leads to a smaller one
  induction hsize : sizeOf n using Nat.strongRecOn generalizing n here outer with
  | _ size ih =>
    subst hsize
    have hbelow : ∀ (child : Node α) (_ : sizeOf child < sizeOf n) (there : Location),
        Restores (child.traverse q there (here :: outer))
          (Adds q.toQuery (child.Leads q.toQuery there)) :=
      fun child hlt there => ih _ hlt child there _ rfl
    rw [Node.traverse]
    refine Restores.bind (yields_enter q here outer) fun _ _ => ?_
    split
    · next entry hentry =>
      have hvalue : here.position = q.input.words.length ∧ n.value? = some entry := by
        split at hentry
        · exact ⟨‹_›, hentry⟩
        · cases hentry
      exact fun t => ⟨[], .accept hvalue.2 hvalue.1, .refl q.toQuery t.progress⟩
    · exact .findSomeM? (forall_mem_edges (restores_preferred hbelow)
        (fun w => restores_wildcardEdge w hbelow) (restores_plain hbelow)
        (restores_setEdges hbelow) .pure_none)

/-- **A branch that leads nowhere leaves no trace.** Whatever is on the trail and in the captures
when a node is visited, or when it is reached along the edge of a word or a separator, of a set or
of a wildcard: if nothing is found, they are as they were. If an entry is found, they have grown by
the labels of the legs to it and, for each leg of a wildcard or a set, by the text of its words. -/
theorem branches_leave_no_trace (q : TimedQuery) (n : Node α) (here : Location)
    (outer : List Location) :
    Restores (n.traverse q here outer) (Adds q.toQuery (n.Leads q.toQuery here)) ∧
      (∀ label, Restores (step label (n.traverse q here outer))
        (Adds q.toQuery fun legs entry => ∃ leg rest, legs = leg :: rest ∧ leg.label = label ∧
          leg.capturing = false ∧ n.Leads q.toQuery here rest entry)) ∧
      Restores
        (setEdges q.toQuery n here fun child _ there => child.traverse q there outer)
        (Adds q.toQuery (n.Leads q.toQuery here)) ∧
      ∀ w, Restores (wildcard q.toQuery w here fun there => n.traverse q there outer)
        (Adds q.toQuery fun legs entry => ∃ stop rest,
          (here.position + w.minWords ≤ stop ∧ stop ≤ q.input.stop here.segment) ∧
            legs = here.leg w.symbol stop true :: rest ∧
              n.Leads q.toQuery { here with position := stop } rest entry) := by
  refine ⟨restores_traverse q n here outer, fun label => ?_, ?_, fun w => ?_⟩
  · refine (restores_step (restores_traverse q n here outer) label here here.position).mono ?_
    rintro p entry p' ⟨_, ⟨rest, rfl, hrest⟩, hgrows⟩
    exact ⟨_, ⟨_, rest, rfl, rfl, rfl, hrest⟩, hgrows⟩
  · exact restores_setEdges fun child _ there => restores_traverse q child there outer
  · refine (restores_wildcard w fun there => restores_traverse q n there outer).mono ?_
    rintro p entry p' ⟨_, ⟨stop, hstop, rest, rfl, hrest⟩, hgrows⟩
    exact ⟨_, ⟨stop, rest, hstop, rfl, hrest⟩, hgrows⟩

end Parley
