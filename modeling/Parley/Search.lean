import Parley.Abort
import Parley.Event
import Parley.Graph
import Parley.PhraseSet
import Parley.Segment
import Parley.Trace

/-!
# Searching the graph

A search follows the edges of the graph along the words of an input and takes the first way that
leads to an entry. At every node the ways on are tried in one fixed order: the preferred word, `#`,
`_`, the word itself or the separator of the segment, the sets, `^`, and `*`. Wildcards take as few
words as they can and sets as many; neither goes beyond the end of a segment.

`Node.moves` lists the ways on in their order, and the search tries them one after the other. Main
results:

* `Node.sizeOf_lt_of_mem_moves` — every way on leads to a smaller node, so that a search ends;
* `search_eq_error_iff` — a search is given up exactly if it nests too deep, or if the time is up
  and there is a graph to search.
-/

namespace Parley

open Text

/-! ## Captures -/

/-- The texts that wildcards and sets have taken, a list for each segment. -/
structure Captures where
  star : List String := []
  thatStar : List String := []
  topicStar : List String := []
  deriving DecidableEq, Repr

namespace Captures

def get (c : Captures) : Segment → List String
  | .message => c.star
  | .that => c.thatStar
  | .topic => c.topicStar

def push (c : Captures) (s : Segment) (text : String) : Captures :=
  match s with
  | .message => { c with star := c.star ++ [text] }
  | .that => { c with thatStar := c.thatStar ++ [text] }
  | .topic => { c with topicStar := c.topicStar ++ [text] }

/-- A text that is added goes to the end of the list of its segment, and nowhere else. -/
theorem get_push (c : Captures) (s t : Segment) (text : String) :
    (c.push s text).get t = if t = s then c.get t ++ [text] else c.get t := by
  cases s <;> cases t <;> rfl

end Captures

/-! ## Cursors and moves -/

/-- A position in an input: the segment it is in and the words that are left of it. -/
structure Cursor where
  segment : Segment
  ahead : List String
  deriving DecidableEq, Repr

namespace Cursor

def startOf (input : Input) (s : Segment) : Cursor :=
  { segment := s, ahead := input.segment s }

/-- The position as a number of words from the start of the input. -/
def position (input : Input) (c : Cursor) : Nat :=
  input.stop c.segment - c.ahead.length

/-- Whether nothing is left of the input. -/
def atEnd (c : Cursor) : Bool :=
  c.segment == .topic && c.ahead.isEmpty

def skip (c : Cursor) (n : Nat) : Cursor :=
  { c with ahead := c.ahead.drop n }

end Cursor

/-- What a search goes by, besides the graph. -/
structure Query where
  comparer : Comparer
  sets : SetTable
  input : Input
  /-- What a wildcard has taken that took no words. -/
  defaultWildcard : String
  /-- Whether to report every visit of a node. -/
  traceVisits : Bool

/-- A way on from a node. -/
inductive Move (α : Type) where
  /-- Along a word or a separator. -/
  | step (label : String) (child : Node α) (cursor : Cursor)
  /-- Along a wildcard or a set, which has taken the text `taken`. -/
  | capture (label taken : String) (child : Node α) (cursor : Cursor)
  /-- No way on, because there is no set of the name. -/
  | unknownSet (name : String)

namespace Node

variable {α : Type}

/-- Along the edge for the preferred form of the next word. -/
def priorityMoves (q : Query) (n : Node α) (c : Cursor) : List (Move α) :=
  match c.ahead with
  | [] => []
  | w :: rest =>
    match n.child? q.comparer ("$" ++ w) with
    | some (t, child) => [.step t.text child { c with ahead := rest }]
    | none => []

/-- Whether a word of an input is spelled like a wildcard or a separator. Such a word is plain text
and can only be taken by wildcards and sets. -/
def isReserved (cmp : Comparer) (w : String) : Bool :=
  (Wildcard.ofSymbol? w).isSome || cmp.equals w Token.thatSeparator ||
    cmp.equals w Token.topicSeparator

/-- Along the edge for the next word, or for the separator if no word is left of the segment. -/
def plainMoves (q : Query) (n : Node α) (c : Cursor) : List (Move α) :=
  match c.ahead with
  | w :: rest =>
    if isReserved q.comparer w then []
    else
      match n.child? q.comparer w with
      | some (t, child) => [.step t.text child { c with ahead := rest }]
      | none => []
  | [] =>
    match c.segment.separator? with
    | none => []
    | some separator =>
      match n.child? q.comparer separator with
      | some (_, child) => [.step separator child (.startOf q.input c.segment.advance)]
      | none => []

/-- What a wildcard or a set has taken when it took the given words. -/
def takenText (q : Query) : List String → String
  | [] => q.defaultWildcard
  | ws => unwords ws

theorem takenText_of_ne_nil (q : Query) {ws : List String} (h : ws ≠ []) :
    takenText q ws = unwords ws := by
  cases ws with
  | nil => exact absurd rfl h
  | cons w ws => rfl

/-- Along the edge for a wildcard, the shortest first. -/
def wildcardMoves (q : Query) (w : Wildcard) (n : Node α) (c : Cursor) : List (Move α) :=
  match n.child? q.comparer w.symbol with
  | none => []
  | some (_, child) =>
    (List.range' w.minWords (c.ahead.length + 1 - w.minWords)).map fun k =>
      .capture w.symbol (takenText q (c.ahead.take k)) child (c.skip k)

/-- Along the edge for one set, the longest phrase first. -/
def phraseMoves (name : String) (set : PhraseSet) (child : Node α) (c : Cursor) :
    List (Move α) :=
  let longest := min set.maxWords c.ahead.length
  ((List.range' 1 longest).reverse.filter fun k =>
      set.contains (unwords (c.ahead.take k))).map fun k =>
    .capture (Token.setLabel name) (unwords (c.ahead.take k)) child (c.skip k)

/-- Along the edges for sets, in the order in which they were added. -/
def setMoves (q : Query) (n : Node α) (c : Cursor) : List (Move α) :=
  if c.ahead.isEmpty then []
  else
    n.sets.flatMap fun (name, child) =>
      match q.sets.get? name with
      | none => [.unknownSet name]
      | some set => phraseMoves name set child c

/-- The ways on from a node, in the order in which they are tried. -/
def moves (q : Query) (n : Node α) (c : Cursor) : List (Move α) :=
  n.priorityMoves q c ++
    (n.wildcardMoves q .priorityZeroOrMore c ++
      (n.wildcardMoves q .priorityOneOrMore c ++
        (n.plainMoves q c ++
          (n.setMoves q c ++
            (n.wildcardMoves q .zeroOrMore c ++ n.wildcardMoves q .oneOrMore c)))))

end Node

def Move.child? {α : Type} : Move α → Option (Node α)
  | .step _ child _ => some child
  | .capture _ _ child _ => some child
  | .unknownSet _ => none

namespace Node

variable {α : Type}

/-- The only move along a word edge leads to a smaller node. -/
theorem sizeOf_lt_of_mem_step {n child d : Node α} {cmp : Comparer} {text label : String}
    {t : Token} {c : Cursor} {m : Move α} (h : n.child? cmp text = some (t, d))
    (hm : m ∈ [Move.step label d c]) (hc : m.child? = some child) : sizeOf child < sizeOf n := by
  rw [List.mem_singleton] at hm
  subst hm
  simp only [Move.child?, Option.some.injEq] at hc
  subst hc
  exact sizeOf_lt_of_child? h

theorem sizeOf_lt_of_mem_priorityMoves {q : Query} {n child : Node α} {c : Cursor} {m : Move α}
    (hm : m ∈ n.priorityMoves q c) (hc : m.child? = some child) : sizeOf child < sizeOf n := by
  unfold priorityMoves at hm
  split at hm
  · simp at hm
  · split at hm
    · next h => exact sizeOf_lt_of_mem_step h hm hc
    · simp at hm

theorem sizeOf_lt_of_mem_plainMoves {q : Query} {n child : Node α} {c : Cursor} {m : Move α}
    (hm : m ∈ n.plainMoves q c) (hc : m.child? = some child) : sizeOf child < sizeOf n := by
  unfold plainMoves at hm
  split at hm
  · -- a word is ahead, which may be reserved
    split at hm
    · simp at hm
    · split at hm
      · next h => exact sizeOf_lt_of_mem_step h hm hc
      · simp at hm
  · -- the segment is at its end, and it may be the last one
    split at hm
    · simp at hm
    · split at hm
      · next h => exact sizeOf_lt_of_mem_step h hm hc
      · simp at hm

theorem sizeOf_lt_of_mem_wildcardMoves {q : Query} {w : Wildcard} {n child : Node α} {c : Cursor}
    {m : Move α} (hm : m ∈ n.wildcardMoves q w c) (hc : m.child? = some child) :
    sizeOf child < sizeOf n := by
  unfold wildcardMoves at hm
  split at hm
  · simp at hm
  · next h =>
    obtain ⟨k, -, rfl⟩ := List.mem_map.1 hm
    simp only [Move.child?, Option.some.injEq] at hc
    exact hc ▸ sizeOf_lt_of_child? h

theorem sizeOf_lt_of_mem_setMoves {q : Query} {n child : Node α} {c : Cursor} {m : Move α}
    (hm : m ∈ n.setMoves q c) (hc : m.child? = some child) : sizeOf child < sizeOf n := by
  unfold setMoves at hm
  split at hm
  · simp at hm
  · obtain ⟨⟨name, d⟩, hd, hm⟩ := List.mem_flatMap.1 hm
    dsimp only at hm
    split at hm
    · rw [List.mem_singleton] at hm
      subst hm
      simp [Move.child?] at hc
    · obtain ⟨k, -, rfl⟩ := List.mem_map.1 hm
      simp only [Move.child?, Option.some.injEq] at hc
      exact hc ▸ sizeOf_lt_of_mem_sets hd

/-- Every way on leads to a smaller node. -/
theorem sizeOf_lt_of_mem_moves {q : Query} {n child : Node α} {c : Cursor} {m : Move α}
    (hm : m ∈ n.moves q c) (hc : m.child? = some child) : sizeOf child < sizeOf n := by
  simp only [moves, List.mem_append] at hm
  rcases hm with h | h | h | h | h | h | h
  · exact sizeOf_lt_of_mem_priorityMoves h hc
  · exact sizeOf_lt_of_mem_wildcardMoves h hc
  · exact sizeOf_lt_of_mem_wildcardMoves h hc
  · exact sizeOf_lt_of_mem_plainMoves h hc
  · exact sizeOf_lt_of_mem_setMoves h hc
  · exact sizeOf_lt_of_mem_wildcardMoves h hc
  · exact sizeOf_lt_of_mem_wildcardMoves h hc

end Node

/-! ## Following moves -/

/-- What an attempt reports, and what it finds. -/
structure Attempt (β : Type) where
  events : List Event
  found? : Option β

namespace Attempt

variable {β γ : Type}

def nothing (events : List Event) : Attempt β := { events, found? := none }

def after (events : List Event) (a : Attempt β) : Attempt β :=
  { a with events := events ++ a.events }

/-- The first attempt that finds something, after what the attempts before it report. -/
def first (attempt : γ → Attempt β) : List γ → Attempt β
  | [] => nothing []
  | x :: xs =>
    let a := attempt x
    match a.found? with
    | some _ => a
    | none => (first attempt xs).after a.events

end Attempt

/-- How far a search has come: the labels of the edges it went along and the texts taken. -/
structure Progress where
  trail : List String := []
  captures : Captures := {}
  deriving DecidableEq, Repr

/-- A way to an entry. -/
structure Way (α : Type) where
  entry : α
  progress : Progress

/-- The first way from a node to an entry, at a position and after some progress. -/
def Node.search {α : Type} (q : Query) (n : Node α) (c : Cursor) (p : Progress) :
    Attempt (Way α) :=
  let visit :=
    if q.traceVisits then [Event.searchStep (unwords p.trail) (c.position q.input)] else []
  Attempt.after visit <|
    match n.value?, c.atEnd with
    | some entry, true => { events := [], found? := some { entry, progress := p } }
    | _, _ =>
      Attempt.first (fun ⟨m, _⟩ =>
        match m with
        | .step label child d =>
          child.search q d { p with trail := p.trail ++ [label] }
        | .capture label taken child d =>
          child.search q d
            { trail := p.trail ++ [label], captures := p.captures.push c.segment taken }
        | .unknownSet name =>
          .nothing [.missingSet name (unwords (p.trail ++ [Token.setLabel name]))])
        (n.moves q c).attach
termination_by sizeOf n
decreasing_by
  all_goals exact Node.sizeOf_lt_of_mem_moves ‹_› rfl

/-! ## Searching several graphs -/

/-- How a search is to be done. -/
structure SearchOptions where
  sets : SetTable
  /-- What a wildcard has taken that took no words. -/
  defaultWildcard : String
  recursionLimit : Nat
  /-- How deep inside sub-requests the search is done. -/
  depth : Nat
  /-- Whether the time for the request is up. -/
  expired : Bool
  trace : Trace

/-- A match: the entry found, the texts taken, the path of the entry as text, and which of the
graphs it is from. -/
structure Found (α : Type) where
  entry : α
  captures : Captures
  path : String
  root : Nat

/-- What a search reports, and how it ends. -/
structure SearchResult (α : Type) where
  events : List Event
  result : Except Abort (Option (Found α))

/-- Searches graphs one after the other, which are numbered from `root` on. -/
def searchFrom {α : Type} (options : SearchOptions) (input : Input) (root : Nat) :
    List (Graph α) → SearchResult α
  | [] => { events := [], result := .ok none }
  | g :: graphs =>
    if options.expired then
      { events := [.searchTimeout input.render], result := .error .timeout }
    else
      let query : Query :=
        { comparer := g.comparer
          sets := options.sets
          input
          defaultWildcard := options.defaultWildcard
          traceVisits := options.trace.search }
      let attempt := g.root.search query (.startOf input .message) {}
      match attempt.found? with
      | some way =>
        { events := attempt.events
          result := .ok (some
            { entry := way.entry
              captures := way.progress.captures
              path := unwords way.progress.trail
              root }) }
      | none =>
        let rest := searchFrom options input (root + 1) graphs
        { rest with events := attempt.events ++ rest.events }

/-- Searches graphs one after the other for the first match of an input. A search too deep inside
sub-requests, or after the time is up, is given up. -/
def search {α : Type} (options : SearchOptions) (graphs : List (Graph α)) (input : Input) :
    SearchResult α :=
  if options.depth > options.recursionLimit then
    { events := [.recursionLimitExceeded options.depth input.render]
      result := .error .recursionLimit }
  else
    let announced := if options.trace.path then [Event.normalizedPath input.render] else []
    let rest := searchFrom options input 0 graphs
    { rest with events := announced ++ rest.events }

/-- Going through graphs is given up exactly if the time is up and there is a graph. -/
theorem searchFrom_eq_error_iff {α : Type} {options : SearchOptions} {input : Input} {root : Nat}
    {graphs : List (Graph α)} :
    (∃ cause, (searchFrom options input root graphs).result = .error cause) ↔
      options.expired = true ∧ graphs ≠ [] := by
  induction graphs generalizing root with
  | nil => simp [searchFrom]
  | cons g graphs ih =>
    rw [searchFrom]
    by_cases hexpired : options.expired = true
    · simp [hexpired]
    · rw [if_neg hexpired]
      dsimp only
      split
      · simp [hexpired]
      · rw [ih]
        simp [hexpired]

/-- A search is given up exactly if it nests too deep, or if the time is up and there is a graph. -/
theorem search_eq_error_iff {α : Type} {options : SearchOptions} {graphs : List (Graph α)}
    {input : Input} :
    (∃ cause, (search options graphs input).result = .error cause) ↔
      options.recursionLimit < options.depth ∨ options.expired = true ∧ graphs ≠ [] := by
  unfold search
  split
  · next h => simp [h]
  · next h =>
    rw [searchFrom_eq_error_iff]
    simp [h]

/-- A search that is not given up is not nested too deep. -/
theorem depth_le_of_search_eq_ok {α : Type} {options : SearchOptions} {graphs : List (Graph α)}
    {input : Input} {found? : Option (Found α)}
    (h : (search options graphs input).result = .ok found?) :
    options.depth ≤ options.recursionLimit := by
  unfold search at h
  split at h
  · simp at h
  · omega

end Parley
