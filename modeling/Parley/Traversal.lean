import Parley.Search

/-!
# Traversals

A search can be done in place: with one trail and one list of captures for each segment, which all
branches work on, and with the position as a number. A branch adds to the trail and to the lists on
its way down, and takes back what it added if it leads nowhere. The place of a capture in its list
is reserved on the way down and filled on the way up, once the words behind it have led to an entry.
At every node a traversal looks at the clock, and it breaks off if the time is up. It also breaks
off if it reads a word that the input does not have.

A traversal keeps a record of its visits, each with the visits that it is part of. It does not go
by this record, which is there to be looked at afterwards.

Main results:

* `Captures.get_reserve`, `Captures.get_fill`, `Captures.get_release` — what becomes of the lists of
  captures;
* `Progress.release_reserve` — what is taken back was never there;
* `Traversal.run_step`, `Traversal.run_capture`, `Traversal.run_filling` — what going along one edge
  amounts to.
-/

namespace Parley

open Text

/-! ## Reserving, filling and releasing captures -/

namespace Captures

/-- Changes the list of one segment. -/
def update (c : Captures) (s : Segment) (f : List String → List String) : Captures :=
  match s with
  | .message => { c with star := f c.star }
  | .that => { c with thatStar := f c.thatStar }
  | .topic => { c with topicStar := f c.topicStar }

/-- Adds a capture that has nothing in it yet. -/
def reserve (c : Captures) (s : Segment) : Captures := c.push s ""

/-- Puts a text into a reserved capture, if there is one with the number. -/
def fill (c : Captures) (s : Segment) (slot : Nat) (text : String) : Captures :=
  c.update s fun texts => texts.set slot text

/-- Takes a capture back, with all that were reserved after it. -/
def release (c : Captures) (s : Segment) (slot : Nat) : Captures :=
  c.update s fun texts => texts.take slot

/-- Captures are known by what they hold for the segments. -/
theorem ext_get {c d : Captures} (h : ∀ s, c.get s = d.get s) : c = d := by
  obtain ⟨cstar, cthat, ctopic⟩ := c
  obtain ⟨dstar, dthat, dtopic⟩ := d
  have hstar := h .message
  have hthat := h .that
  have htopic := h .topic
  simp only [get] at hstar hthat htopic
  rw [hstar, hthat, htopic]

/-- An update of one segment leaves the others alone. -/
theorem get_update (c : Captures) (s t : Segment) (f : List String → List String) :
    (c.update s f).get t = if t = s then f (c.get t) else c.get t := by
  cases s <;> cases t <;> rfl

/-- To reserve is to put an empty text at the end. -/
theorem get_reserve (c : Captures) (s t : Segment) :
    (c.reserve s).get t = if t = s then c.get t ++ [""] else c.get t :=
  get_push c s t ""

/-- To fill is to put a text in the place of the empty one. -/
theorem get_fill (c : Captures) (s t : Segment) (slot : Nat) (text : String) :
    (c.fill s slot text).get t = if t = s then (c.get t).set slot text else c.get t :=
  get_update ..

/-- To release is to drop the slot and what is behind it. -/
theorem get_release (c : Captures) (s t : Segment) (slot : Nat) :
    (c.release s slot).get t = if t = s then (c.get t).take slot else c.get t :=
  get_update ..

/-- A slot that is released after it was reserved leaves no trace. -/
theorem release_reserve (c : Captures) (s : Segment) :
    (c.reserve s).release s (c.get s).length = c := by
  refine ext_get fun t => ?_
  rw [get_release, get_reserve]
  split
  · next h => rw [h, List.take_left]
  · rfl

/-- A capture keeps its place, although the one behind it is taken back, reserved anew and filled
before it. -/
example :
    let reserved := (((reserve {} .message).reserve .message).release .message 1).reserve .message
    ((reserved.fill .message 1 "b").fill .message 0 "a").get .message = ["a", "b"] :=
  rfl

end Captures

/-! ## Adding to the progress and taking back -/

namespace Progress

/-- The progress behind an edge. -/
def along (p : Progress) (label : String) : Progress := { p with trail := p.trail ++ [label] }

/-- The progress in front of the last edge. -/
def back (p : Progress) : Progress := { p with trail := p.trail.dropLast }

def reserve (p : Progress) (s : Segment) : Progress :=
  { p with captures := p.captures.reserve s }

def fill (p : Progress) (s : Segment) (slot : Nat) (text : String) : Progress :=
  { p with captures := p.captures.fill s slot text }

def release (p : Progress) (s : Segment) (slot : Nat) : Progress :=
  { p with captures := p.captures.release s slot }

/-- A label that is put on the trail and taken back leaves no trace. -/
theorem back_along (p : Progress) (label : String) : (p.along label).back = p := by
  rw [along, back, List.dropLast_concat]

/-- A capture and a label that are taken back were never there. -/
theorem release_reserve (p : Progress) (s : Segment) (label : String) :
    ((p.reserve s).along label).back.release s (p.captures.get s).length = p := by
  rw [back_along, release, reserve, Captures.release_reserve]

end Progress

/-! ## What a traversal works on -/

/-- Why a traversal breaks off. -/
inductive Halt where
  | abort (cause : Abort)
  /-- The input does not have the words that were asked for. -/
  | outOfRange
  deriving DecidableEq, Repr

/-- A location in an input: a segment, and the number of a word or of the end. -/
structure Location where
  segment : Segment
  position : Nat
  deriving DecidableEq, Repr

/-- What a traversal did at a location: it visited a node, or it accepted the node's entry. -/
structure Record (α : Type) where
  location : Location
  /-- The locations of the visits that this one is part of, the innermost first. -/
  outer : List Location
  accepted? : Option α := none
  deriving DecidableEq, Repr

/-- The trail and the captures that all branches work on, what has been reported and what has been
done so far. -/
structure Traversal (α : Type) where
  progress : Progress := {}
  events : List Event := []
  records : List (Record α) := []
  deriving DecidableEq, Repr

/-- A computation that works on a traversal and may break off. -/
abbrev TraversalM (α β : Type) := EStateM Halt (Traversal α) β

/-- What a traversal goes by, besides the graph. -/
structure TimedQuery extends Query where
  /-- Whether the time is up, by the number of visits before. -/
  late : Nat → Bool

namespace Traversal

variable {α β : Type}

def report (e : Event) : TraversalM α Unit :=
  modify fun t => { t with events := t.events ++ [e] }

def record (r : Record α) : TraversalM α Unit :=
  modify fun t => { t with records := t.records ++ [r] }

/-! ## Reading the input -/

/-- The word with a number. -/
def wordAt (input : Input) (i : Nat) : TraversalM α String :=
  match input.words[i]? with
  | some w => pure w
  | none => throw .outOfRange

/-- The words from a number up to another one. -/
def span (input : Input) (i j : Nat) : TraversalM α (List String) :=
  if i ≤ j ∧ j ≤ input.words.length then pure ((input.words.drop i).take (j - i))
  else throw .outOfRange

/-- How far it is from a number up to another one. -/
def distance (i j : Nat) : TraversalM α Nat :=
  if i ≤ j then pure (j - i) else throw .outOfRange

/-- A function of the result leaves what was done alone. -/
theorem run_map {γ : Type} (f : β → γ) (act : TraversalM α β) (t : Traversal α) :
    (f <$> act).run t =
      match act.run t with
      | .ok b t' => .ok (f b) t'
      | .error e t' => .error e t' := by
  have hbind : (f <$> act).run t = (act >>= fun b => pure (f b)).run t := rfl
  rw [hbind, EStateM.run_bind]
  cases act.run t <;> rfl

/-- To read beyond the words stops the traversal. -/
theorem run_wordAt (input : Input) (i : Nat) (t : Traversal α) :
    (wordAt input i : TraversalM α String).run t =
      match input.words[i]? with
      | some w => .ok w t
      | none => .error .outOfRange t := by
  rw [wordAt]
  cases input.words[i]? <;> rfl

/-- A span that is not within the words stops the traversal. -/
theorem run_span (input : Input) (i j : Nat) (t : Traversal α) :
    (span input i j : TraversalM α (List String)).run t =
      if i ≤ j ∧ j ≤ input.words.length then .ok ((input.words.drop i).take (j - i)) t
      else .error .outOfRange t := by
  rw [span]
  split <;> rfl

/-- The distance to a position further left stops the traversal. -/
theorem run_distance (i j : Nat) (t : Traversal α) :
    (distance i j : TraversalM α Nat).run t =
      if i ≤ j then .ok (j - i) t else .error .outOfRange t := by
  rw [distance]
  split <;> rfl

/-! ## The trail and the captures -/

def push (label : String) : TraversalM α Unit :=
  modify fun t => { t with progress := t.progress.along label }

def pop : TraversalM α Unit :=
  modify fun t => { t with progress := t.progress.back }

/-- Reserves a capture and returns its number. -/
def reserve (s : Segment) : TraversalM α Nat :=
  modifyGet fun t =>
    ((t.progress.captures.get s).length, { t with progress := t.progress.reserve s })

def fill (s : Segment) (slot : Nat) (text : String) : TraversalM α Unit :=
  modify fun t => { t with progress := t.progress.fill s slot text }

def release (s : Segment) (slot : Nat) : TraversalM α Unit :=
  modify fun t => { t with progress := t.progress.release s slot }

/-! ## Going along one edge -/

/-- Goes along the edge of a word or a separator. -/
def step (label : String) (visit : TraversalM α (Option β)) : TraversalM α (Option β) := do
  push label
  let found? ← visit
  if found?.isNone then pop
  return found?

/-- Goes along the edge of a wildcard or a set, with a capture reserved for what it takes. -/
def capture (label : String) (s : Segment) (attempt : Nat → TraversalM α (Option β)) :
    TraversalM α (Option β) := do
  let slot ← reserve s
  push label
  let found? ← attempt slot
  if found?.isNone then
    pop
    release s slot
  return found?

/-- Fills a reserved capture with a text if a visit finds something. -/
def filling (s : Segment) (slot : Nat) (visit : TraversalM α (Option β))
    (text : TraversalM α String) : TraversalM α (Option β) := do
  match ← visit with
  | none => return none
  | some found =>
    fill s slot (← text)
    return some found

/-- To go along an edge is to add its label, and to take it back if nothing is found. -/
theorem run_step (label : String) (visit : TraversalM α (Option β)) (t : Traversal α) :
    (step label visit).run t =
      match visit.run { t with progress := t.progress.along label } with
      | .ok none t' => .ok none { t' with progress := t'.progress.back }
      | result => result := by
  simp only [step, push, EStateM.run_bind, EStateM.run_modify]
  cases visit.run { t with progress := t.progress.along label } with
  | error e t' => rfl
  | ok found? t' => cases found? <;> rfl

/-- A capture step by step: a slot and a label, the attempt, and both taken back if it fails. -/
theorem run_capture (label : String) (s : Segment) (attempt : Nat → TraversalM α (Option β))
    (t : Traversal α) :
    (capture label s attempt).run t =
      let slot := (t.progress.captures.get s).length
      match (attempt slot).run { t with progress := (t.progress.reserve s).along label } with
      | .ok none t' => .ok none { t' with progress := t'.progress.back.release s slot }
      | result => result := by
  simp only [capture, push, reserve, EStateM.run_bind, EStateM.run_modify, EStateM.run_modifyGet]
  cases (attempt (t.progress.captures.get s).length).run
      { t with progress := (t.progress.reserve s).along label } with
  | error e t' => rfl
  | ok found? t' => cases found? <;> rfl

/-- The text is put in only after the visit has found something. -/
theorem run_filling (s : Segment) (slot : Nat) (visit : TraversalM α (Option β))
    (text : TraversalM α String) (t : Traversal α) :
    (filling s slot visit text).run t =
      match visit.run t with
      | .ok (some found) t' =>
        match text.run t' with
        | .ok taken t'' => .ok (some found) { t'' with progress := t''.progress.fill s slot taken }
        | .error e t'' => .error e t''
      | result => result := by
  simp only [filling, EStateM.run_bind]
  cases visit.run t with
  | error e t' => rfl
  | ok found? t' =>
    cases found? with
    | none => rfl
    | some found =>
      simp only [EStateM.run_bind]
      cases text.run t' <;> rfl

/-- Goes along the edge of a wildcard with every number of words, the least first. -/
def wildcard (q : Query) (w : Wildcard) (here : Location)
    (visit : Location → TraversalM α (Option β)) : TraversalM α (Option β) :=
  let first := here.position + w.minWords
  let stop := q.input.stop here.segment
  if first > stop then pure none
  else
    capture w.symbol here.segment fun slot =>
      (List.range' first (stop + 1 - first)).findSomeM? fun i =>
        filling here.segment slot (visit { here with position := i })
          (if i = here.position then pure q.defaultWildcard
          else unwords <$> span q.input here.position i)

/-- Goes along the edge of a set with every phrase of the set, the longest first. -/
def phrases (q : Query) (name : String) (here : Location)
    (visit : Location → TraversalM α (Option β)) : TraversalM α (Option β) := do
  match q.sets.get? name with
  | none =>
    let t ← get
    report (.missingSet name (unwords (t.progress.trail ++ [Token.setLabel name])))
    return none
  | some set =>
    let longest := min set.maxWords (← distance here.position (q.input.stop here.segment))
    if longest = 0 then return none
    else
      capture (Token.setLabel name) here.segment fun slot =>
        (List.range' (here.position + 1) longest).reverse.findSomeM? fun i => do
          let phrase := unwords (← span q.input here.position i)
          if set.contains phrase then
            filling here.segment slot (visit { here with position := i }) (pure phrase)
          else return none

/-! ## Visiting nodes -/

/-- Begins a visit: it is recorded, and nothing more is done if the time is up. -/
def enter (q : TimedQuery) (here : Location) (outer : List Location) : TraversalM α Unit := do
  let t ← get
  record { location := here, outer }
  if q.late t.records.length then
    report (.searchTimeout q.input.render)
    throw (.abort .timeout)
  if q.traceVisits then
    report (.searchStep (unwords t.progress.trail) here.position)

/-- A visit is recorded also if it is too late, and then not made. -/
theorem run_enter (q : TimedQuery) (here : Location) (outer : List Location) (t : Traversal α) :
    (enter q here outer).run t =
      let records := t.records ++ [{ location := here, outer }]
      if q.late t.records.length then
        .error (.abort .timeout)
          { t with events := t.events ++ [.searchTimeout q.input.render], records }
      else
        .ok ()
          { t with
            events := t.events ++
              if q.traceVisits then [.searchStep (unwords t.progress.trail) here.position] else []
            records } := by
  rw [enter]
  cases hlate : q.late t.records.length <;> cases htrace : q.traceVisits <;>
    simp [EStateM.run_bind, record, report, hlate]

/-- Accepts an entry. -/
def accept (entry : α) (here : Location) (outer : List Location) : TraversalM α (Option α) := do
  record { location := here, outer, accepted? := some entry }
  return some entry

/-- How the nodes that the edges of a node lead to are visited. -/
abbrev VisitBelow (n : Node α) : Type :=
  (child : Node α) → sizeOf child < sizeOf n → Location → TraversalM α (Option α)

/-- Goes along the edge for the preferred form of the next word. -/
def preferred (q : Query) (n : Node α) (here : Location) (visit : VisitBelow n) :
    TraversalM α (Option α) := do
  if here.position < q.input.stop here.segment then
    let w ← wordAt q.input here.position
    match h : n.child? q.comparer ("$" ++ w) with
    | none => return none
    | some (t, child) =>
      step t.text
        (visit child (Node.sizeOf_lt_of_child? h) { here with position := here.position + 1 })
  else return none

/-- Goes along the edge for a wildcard, if there is one. -/
def wildcardEdge (q : Query) (w : Wildcard) (n : Node α) (here : Location)
    (visit : VisitBelow n) : TraversalM α (Option α) :=
  match h : n.child? q.comparer w.symbol with
  | none => pure none
  | some (_, child) => wildcard q w here (visit child (Node.sizeOf_lt_of_child? h))

/-- Goes along the edge for the next word, or for the separator if no word is left. -/
def plain (q : Query) (n : Node α) (here : Location) (visit : VisitBelow n) :
    TraversalM α (Option α) := do
  if here.position < q.input.stop here.segment then
    let w ← wordAt q.input here.position
    if Node.isReserved q.comparer w then return none
    else
      match h : n.child? q.comparer w with
      | none => return none
      | some (t, child) =>
        step t.text
          (visit child (Node.sizeOf_lt_of_child? h) { here with position := here.position + 1 })
  else
    match here.segment.separator? with
    | none => return none
    | some separator =>
      match h : n.child? q.comparer separator with
      | none => return none
      | some (_, child) =>
        step separator
          (visit child (Node.sizeOf_lt_of_child? h)
            { segment := here.segment.advance, position := here.position + 1 })

/-- Goes along the edges for sets, in the order in which they were added. -/
def setEdges (q : Query) (n : Node α) (here : Location) (visit : VisitBelow n) :
    TraversalM α (Option α) :=
  n.sets.attach.findSomeM? fun edge =>
    phrases q edge.1.1 here (visit edge.1.2 (Node.sizeOf_lt_of_mem_sets edge.2))

/-- The ways on from a node, in the order in which they are tried. -/
def edges (q : Query) (n : Node α) (here : Location) (visit : VisitBelow n) :
    List (TraversalM α (Option α)) :=
  [preferred q n here visit,
    wildcardEdge q .priorityZeroOrMore n here visit,
    wildcardEdge q .priorityOneOrMore n here visit,
    plain q n here visit,
    if here.position < q.input.stop here.segment then setEdges q n here visit else pure none,
    wildcardEdge q .zeroOrMore n here visit,
    wildcardEdge q .oneOrMore n here visit]

/-- What holds of every kind of edge holds of all ways on. -/
theorem forall_mem_edges {P : TraversalM α (Option α) → Prop} {q : Query} {n : Node α}
    {here : Location} {visit : VisitBelow n} (hpreferred : P (preferred q n here visit))
    (hwildcard : ∀ w, P (wildcardEdge q w n here visit)) (hplain : P (plain q n here visit))
    (hsets : P (setEdges q n here visit)) (hnone : P (pure none)) :
    ∀ act ∈ edges q n here visit, P act := by
  have hguarded : P
      (if here.position < q.input.stop here.segment then setEdges q n here visit
        else pure none) := by
    split
    · exact hsets
    · exact hnone
  simp only [edges, List.forall_mem_cons]
  exact ⟨hpreferred, hwildcard _, hwildcard _, hplain, hguarded, hwildcard _, hwildcard _,
    List.forall_mem_nil _⟩

end Traversal

open Traversal in
/-- Visits a node at a location of the input, and the nodes below it as far as needed. -/
def Node.traverse {α : Type} (q : TimedQuery) (n : Node α) (here : Location)
    (outer : List Location) : TraversalM α (Option α) := do
  enter q here outer
  match if here.position = q.input.words.length then n.value? else none with
  | some entry => accept entry here outer
  | none =>
    (edges q.toQuery n here fun child _ there =>
      child.traverse q there (here :: outer)).findSomeM? id
termination_by sizeOf n

/-! ## Several graphs -/

/-- What the traversal of a graph goes by. -/
def SearchOptions.timedQuery (options : SearchOptions) (late : Nat → Bool) (input : Input)
    (comparer : Comparer) : TimedQuery where
  comparer
  sets := options.sets
  input
  defaultWildcard := options.defaultWildcard
  traceVisits := options.trace.search
  late

/-- Traverses graphs one after the other, which are numbered from `root` on. -/
def traverseFrom {α : Type} (options : SearchOptions) (late : Nat → Bool) (input : Input)
    (root : Nat) : List (Graph α) → TraversalM α (Option (Found α))
  | [] => return none
  | g :: graphs => do
    modify fun t => { t with progress := {} }
    let start : Location := { segment := .message, position := 0 }
    match ← g.root.traverse (options.timedQuery late input g.comparer) start [] with
    | none => traverseFrom options late input (root + 1) graphs
    | some entry =>
      let t ← get
      return some
        { entry
          captures := t.progress.captures
          path := unwords t.progress.trail
          root }

open Traversal in
/-- Traverses graphs one after the other up to the first entry that an input leads to, by a clock
that says whether the time is up. -/
def traverse {α : Type} (options : SearchOptions) (late : Nat → Bool) (graphs : List (Graph α))
    (input : Input) : TraversalM α (Option (Found α)) := do
  if options.depth > options.recursionLimit then
    report (.recursionLimitExceeded options.depth input.render)
    throw (.abort .recursionLimit)
  if options.trace.path then report (.normalizedPath input.render)
  traverseFrom options late input 0 graphs

end Parley
