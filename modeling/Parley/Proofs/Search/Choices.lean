import Mathlib.Data.List.Basic
import Parley.Search

/-!
# The choices of a match

A match is made node by node: at each of them one edge is chosen, together with the number of words
that go along it. `Node.follow?` goes where a list of choices leads, and a complete match of a graph
is a list of choices that leads to an entry at the end of the input.

Choices at one node are tried in the order of `Choice.Before`, which mentions neither the node nor
the input. Main results:

* `Node.filterMap_moves` — the ways on from a node are what its choices lead to, in their order;
* `Node.pairwise_choices` — the choices at a node stand in the order in which they are tried;
* `Node.found?_search` — a search takes the first choice behind which it finds anything.
-/

namespace Parley

open Text

/-! ## Choices and their order -/

/-- What a match decides at one node: the edge that it goes along, and how many words it takes there
if the edge does not say so. The edges for sets are numbered in the order in which they were
added. -/
inductive Choice where
  /-- The preferred form of the next word. -/
  | preferred
  | wildcard (w : Wildcard) (length : Nat)
  /-- The next word, or the separator where no word is left of the segment. -/
  | plain
  | phrase (edge length : Nat)
  deriving DecidableEq, Repr

namespace Choice

/-- The place of a kind of choice among the kinds. -/
def rank : Choice → Nat
  | .preferred => 0
  | .wildcard .priorityZeroOrMore _ => 1
  | .wildcard .priorityOneOrMore _ => 2
  | .plain => 3
  | .phrase _ _ => 4
  | .wildcard .zeroOrMore _ => 5
  | .wildcard .oneOrMore _ => 6

/-- Whether a choice is tried before another one at the same node: by their kinds, with fewer words
first for a wildcard, and for sets in the order of the edges with more words first. -/
inductive Before : Choice → Choice → Prop where
  | ofRank {a b : Choice} : a.rank < b.rank → Before a b
  | shorter (w : Wildcard) {k l : Nat} : k < l → Before (.wildcard w k) (.wildcard w l)
  | earlier {i j : Nat} (k l : Nat) : i < j → Before (.phrase i k) (.phrase j l)
  | longer (i : Nat) {k l : Nat} : l < k → Before (.phrase i k) (.phrase i l)

theorem Before.asymm {a b : Choice} (h : Before a b) : ¬ Before b a := by
  intro h'
  -- choices that are compared by their numbers of words or edges have the same rank
  cases h with
  | ofRank hrank =>
    cases h' with
    | ofRank => omega
    | shorter w =>
      cases w <;> exact absurd hrank (Nat.lt_irrefl _)
    | earlier => exact absurd hrank (Nat.lt_irrefl _)
    | longer => exact absurd hrank (Nat.lt_irrefl _)
  | shorter w hlt =>
    cases h' with
    | ofRank hrank => cases w <;> exact absurd hrank (Nat.lt_irrefl _)
    | shorter => omega
  | earlier k l hlt =>
    cases h' with
    | ofRank hrank => simp [rank] at hrank
    | earlier => omega
    | longer => omega
  | longer i hlt =>
    cases h' with
    | ofRank hrank => simp [rank] at hrank
    | earlier => omega
    | longer => omega

end Choice

/-! ## Where choices lead -/

/-- Where one choice leads: the label of the edge, the text taken if it is the edge of a wildcard or
a set, and the node and the position behind it. -/
structure Advance (α : Type) where
  label : String
  taken? : Option String
  child : Node α
  cursor : Cursor

namespace Advance

variable {α : Type}

/-- The progress behind an edge that was gone along in a segment. -/
def progress (a : Advance α) (s : Segment) (p : Progress) : Progress :=
  { trail := p.trail ++ [a.label]
    captures :=
      match a.taken? with
      | some text => p.captures.push s text
      | none => p.captures }

end Advance

/-- Where a move leads. -/
def Move.advance? {α : Type} : Move α → Option (Advance α)
  | .step label child cursor => some { label, taken? := none, child, cursor }
  | .capture label taken child cursor => some { label, taken? := some taken, child, cursor }
  | .unknownSet _ => none

/-- The first of some attempts finds what the first one that finds anything finds. -/
theorem Attempt.found?_first {β γ : Type} (attempt : γ → Attempt β) (xs : List γ) :
    (Attempt.first attempt xs).found? = xs.findSome? fun x => (attempt x).found? := by
  induction xs with
  | nil => rfl
  | cons x xs ih =>
    rw [Attempt.first, List.findSome?_cons]
    cases h : (attempt x).found? with
    | none => simpa [Attempt.after] using ih
    | some b => simp [h]

namespace Node

variable {α : Type}

/-- Where a choice at a node leads, if there is the edge and the words ahead fit. -/
def advance? (q : Query) (n : Node α) (c : Cursor) : Choice → Option (Advance α)
  | .preferred =>
    match c.ahead with
    | [] => none
    | w :: rest =>
      (n.child? q.comparer ("$" ++ w)).map fun (t, child) =>
        { label := t.text, taken? := none, child, cursor := { c with ahead := rest } }
  | .wildcard w k =>
    if w.minWords ≤ k ∧ k ≤ c.ahead.length then
      (n.child? q.comparer w.symbol).map fun (_, child) =>
        { label := w.symbol, taken? := some (takenText q (c.ahead.take k)), child
          cursor := c.skip k }
    else none
  | .plain =>
    match c.ahead with
    | w :: rest =>
      if isReserved q.comparer w then none
      else
        (n.child? q.comparer w).map fun (t, child) =>
          { label := t.text, taken? := none, child, cursor := { c with ahead := rest } }
    | [] =>
      c.segment.separator?.bind fun separator =>
        (n.child? q.comparer separator).map fun (_, child) =>
          { label := separator, taken? := none, child
            cursor := .startOf q.input c.segment.advance }
  | .phrase i k =>
    n.sets[i]?.bind fun (name, child) =>
      (q.sets.get? name).bind fun set =>
        if 1 ≤ k ∧ k ≤ c.ahead.length ∧ k ≤ set.maxWords ∧
            set.contains (unwords (c.ahead.take k)) then
          some
            { label := Token.setLabel name, taken? := some (unwords (c.ahead.take k)), child
              cursor := c.skip k }
        else none

/-- The way that a list of choices leads from a node, if it leads to an entry at the end of the
input. -/
def follow? (q : Query) : Node α → Cursor → Progress → List Choice → Option (Way α)
  | n, c, p, [] => if c.atEnd then n.value?.map fun entry => { entry, progress := p } else none
  | n, c, p, ch :: chs =>
    (n.advance? q c ch).bind fun a => a.child.follow? q a.cursor (a.progress c.segment p) chs

/-! ## The choices at a node -/

/-- The choices at the edge of a wildcard. -/
def wildcardChoices (w : Wildcard) (c : Cursor) : List Choice :=
  (List.range' w.minWords (c.ahead.length + 1 - w.minWords)).map (.wildcard w)

/-- The choices at the edges for sets. -/
def phraseChoices (n : Node α) (c : Cursor) : List Choice :=
  n.sets.zipIdx.flatMap fun edge => (List.range' 1 c.ahead.length).reverse.map (.phrase edge.2)

/-- The choices at a node, as far as they are not ruled out by the number of words ahead and by the
number of edges for sets, in the order in which they are tried. -/
def choices (n : Node α) (c : Cursor) : List Choice :=
  [.preferred] ++
    (wildcardChoices .priorityZeroOrMore c ++
      (wildcardChoices .priorityOneOrMore c ++
        ([.plain] ++
          (n.phraseChoices c ++
            (wildcardChoices .zeroOrMore c ++ wildcardChoices .oneOrMore c)))))

theorem mem_wildcardChoices {w : Wildcard} {c : Cursor} {ch : Choice} :
    ch ∈ wildcardChoices w c ↔ ∃ k, w.minWords ≤ k ∧ k ≤ c.ahead.length ∧ ch = .wildcard w k := by
  rw [wildcardChoices, List.mem_map]
  constructor
  · rintro ⟨k, hk, rfl⟩
    rw [List.mem_range'_1] at hk
    exact ⟨k, hk.1, by omega, rfl⟩
  · rintro ⟨k, hmin, hmax, rfl⟩
    exact ⟨k, List.mem_range'_1.2 ⟨hmin, by omega⟩, rfl⟩

theorem mem_phraseChoices {n : Node α} {c : Cursor} {ch : Choice} :
    ch ∈ n.phraseChoices c ↔
      ∃ i k, i < n.sets.length ∧ 1 ≤ k ∧ k ≤ c.ahead.length ∧ ch = .phrase i k := by
  simp only [phraseChoices, List.mem_flatMap, List.mem_map, List.mem_reverse, List.mem_range'_1]
  constructor
  · rintro ⟨⟨edge, i⟩, hedge, k, hk, rfl⟩
    -- the number that an edge is listed with is its place
    have hi := List.mem_zipIdx_iff_getElem?.1 hedge
    exact ⟨i, k, (List.getElem?_eq_some_iff.1 hi).1, hk.1, by omega, rfl⟩
  · rintro ⟨i, k, hi, hmin, hmax, rfl⟩
    refine ⟨(n.sets[i], i), ?_, k, ⟨hmin, by omega⟩, rfl⟩
    rw [List.mem_zipIdx_iff_getElem?]
    exact List.getElem?_eq_getElem hi

/-- A choice that leads anywhere is among the choices at its node. -/
theorem mem_choices_of_advance? {q : Query} {n : Node α} {c : Cursor} {ch : Choice}
    {a : Advance α} (h : n.advance? q c ch = some a) : ch ∈ n.choices c := by
  simp only [choices, List.mem_append, List.mem_singleton, mem_wildcardChoices, mem_phraseChoices]
  -- the words that a choice takes are ahead, and its edge is one of the edges
  cases ch with
  | preferred => exact Or.inl rfl
  | plain => simp
  | wildcard w k =>
    rw [advance?] at h
    split at h
    · next hk => cases w <;> simp_all [Wildcard.minWords]
    · simp at h
  | phrase i k =>
    obtain ⟨⟨name, child⟩, hedge, h⟩ := Option.bind_eq_some_iff.1 h
    obtain ⟨set, -, h⟩ := Option.bind_eq_some_iff.1 h
    split at h
    · next hk =>
      have hi := (List.getElem?_eq_some_iff.1 hedge).1
      simp [hi, hk.1, hk.2.1]
    · simp at h

/-! The order of the choices at a node is the one of `Choice.Before`. -/

theorem pairwise_wildcardChoices (w : Wildcard) (c : Cursor) :
    (wildcardChoices w c).Pairwise Choice.Before := by
  rw [wildcardChoices, List.pairwise_map]
  exact (List.pairwise_lt_range' ..).imp fun hlt => .shorter w hlt

theorem pairwise_phraseChoices (n : Node α) (c : Cursor) :
    (n.phraseChoices c).Pairwise Choice.Before := by
  rw [phraseChoices, List.pairwise_flatMap]
  constructor
  · -- along one edge
    intro edge _
    rw [List.pairwise_map, List.pairwise_reverse]
    exact (List.pairwise_lt_range' ..).imp fun hlt => .longer edge.2 hlt
  · -- between two edges, whose numbers ascend
    have hindices : (n.sets.zipIdx.map Prod.snd).Pairwise (· < ·) := by
      rw [List.zipIdx_map_snd]
      exact List.pairwise_lt_range' ..
    refine (List.pairwise_map.1 hindices).imp ?_
    intro edge other hlt a ha b hb
    obtain ⟨k, -, rfl⟩ := List.mem_map.1 ha
    obtain ⟨l, -, rfl⟩ := List.mem_map.1 hb
    exact .earlier k l hlt

/-- The choices at a node stand in the order in which they are tried. -/
theorem pairwise_choices (n : Node α) (c : Cursor) : (n.choices c).Pairwise Choice.Before := by
  -- within one kind the order is known; between kinds it is the one of their ranks
  simp only [choices, List.pairwise_append, List.mem_append, List.mem_singleton,
    mem_wildcardChoices, mem_phraseChoices]
  refine ⟨List.pairwise_singleton .., ⟨pairwise_wildcardChoices .., ⟨pairwise_wildcardChoices ..,
    ⟨List.pairwise_singleton .., ⟨pairwise_phraseChoices .., ⟨pairwise_wildcardChoices ..,
    pairwise_wildcardChoices .., ?_⟩, ?_⟩, ?_⟩, ?_⟩, ?_⟩, ?_⟩
  all_goals
    intro a ha b hb
    refine .ofRank ?_
    grind [Choice.rank]

/-! ## Moves as choices -/

theorem filterMap_priorityMoves (q : Query) (n : Node α) (c : Cursor) :
    (n.priorityMoves q c).filterMap Move.advance? =
      [Choice.preferred].filterMap (n.advance? q c) := by
  obtain ⟨s, _ | ⟨w, rest⟩⟩ := c
  · rfl
  · rw [priorityMoves, List.filterMap_cons, List.filterMap_nil, advance?]
    cases h : n.child? q.comparer ("$" ++ w) <;> simp [h, Move.advance?]

theorem filterMap_plainMoves (q : Query) (n : Node α) (c : Cursor) :
    (n.plainMoves q c).filterMap Move.advance? = [Choice.plain].filterMap (n.advance? q c) := by
  obtain ⟨s, _ | ⟨w, rest⟩⟩ := c
  · rw [plainMoves, List.filterMap_cons, List.filterMap_nil, advance?]
    cases s.separator? with
    | none => rfl
    | some separator => cases h : n.child? q.comparer separator <;> simp [h, Move.advance?]
  · rw [plainMoves, List.filterMap_cons, List.filterMap_nil, advance?]
    by_cases hw : isReserved q.comparer w = true
    · simp [hw]
    · cases h : n.child? q.comparer w <;> simp [hw, h, Move.advance?]

theorem filterMap_wildcardMoves (q : Query) (w : Wildcard) (n : Node α) (c : Cursor) :
    (n.wildcardMoves q w c).filterMap Move.advance? =
      (wildcardChoices w c).filterMap (n.advance? q c) := by
  rw [wildcardMoves, wildcardChoices, List.filterMap_map]
  cases hchild : n.child? q.comparer w.symbol with
  | none =>
    rw [List.filterMap_nil, eq_comm, List.filterMap_eq_nil_iff]
    intro k _
    simp [advance?, hchild]
  | some edge =>
    rw [List.filterMap_map]
    refine List.filterMap_congr ?_
    intro k hk
    rw [List.mem_range'_1] at hk
    have hfits : w.minWords ≤ k ∧ k ≤ c.ahead.length := ⟨hk.1, by omega⟩
    simp [advance?, hfits, hchild, Move.advance?]

/-- What the choices at one edge for a set lead to; longer phrases than the set has do not occur. -/
theorem filterMap_phraseMoves (q : Query) (n : Node α) (c : Cursor) {i : Nat} {name : String}
    {child : Node α} {set : PhraseSet} (hedge : n.sets[i]? = some (name, child))
    (hset : q.sets.get? name = some set) :
    (phraseMoves name set child c).filterMap Move.advance? =
      ((List.range' 1 c.ahead.length).reverse.map (Choice.phrase i)).filterMap
        (n.advance? q c) := by
  -- the lengths that the search tries are followed by those that are too long for the set
  have hsplit : c.ahead.length =
      min set.maxWords c.ahead.length + (c.ahead.length - min set.maxWords c.ahead.length) := by
    omega
  rw [phraseMoves, List.filterMap_map, List.filterMap_filter, List.filterMap_map, hsplit,
    ← List.range'_append_1, List.reverse_append, List.filterMap_append, ← hsplit]
  have hlong : ((List.range' (1 + min set.maxWords c.ahead.length)
      (c.ahead.length - min set.maxWords c.ahead.length)).reverse.filterMap
        (n.advance? q c ∘ Choice.phrase i)) = [] := by
    rw [List.filterMap_eq_nil_iff]
    intro k hk
    rw [List.mem_reverse, List.mem_range'_1] at hk
    have hk' : ¬ k ≤ set.maxWords := by omega
    simp [advance?, hedge, hset, hk']
  rw [hlong, List.nil_append]
  -- for the others, the choice checks what the search has filtered by
  refine List.filterMap_congr ?_
  intro k hk
  rw [List.mem_reverse, List.mem_range'_1] at hk
  have hpos : 1 ≤ k := hk.1
  have hahead : k ≤ c.ahead.length := by omega
  have hbound : k ≤ set.maxWords := by omega
  simp only [Function.comp_apply, advance?, hedge, hset, Option.bind_some, hpos, hahead, hbound,
    true_and, Move.advance?]

theorem filterMap_setMoves (q : Query) (n : Node α) (c : Cursor) :
    (n.setMoves q c).filterMap Move.advance? = (n.phraseChoices c).filterMap (n.advance? q c) := by
  rw [setMoves, phraseChoices]
  split
  · next hahead =>
    -- no words are left that a set could take
    rw [List.isEmpty_iff.1 hahead]
    simp
  · -- the edges with their numbers, so that both sides go through one list
    have hsets := List.zipIdx_map_fst 0 n.sets
    conv_lhs => rw [← hsets]
    rw [List.flatMap_map, List.filterMap_flatMap, List.filterMap_flatMap]
    refine List.flatMap_congr ?_
    rintro ⟨⟨name, child⟩, i⟩ hedge
    have hi : n.sets[i]? = some (name, child) := List.mem_zipIdx_iff_getElem?.1 hedge
    cases hset : q.sets.get? name with
    | none =>
      rw [List.filterMap_map]
      simp only [hset]
      -- an unknown set is reported, which leads nowhere
      rw [eq_comm, List.filterMap_eq_nil_iff.2]
      · rfl
      · intro k _
        simp [advance?, hi, hset]
    | some set =>
      simp only [hset]
      exact filterMap_phraseMoves q n c hi hset

/-- The ways on from a node are what its choices lead to, in their order. -/
theorem filterMap_moves (q : Query) (n : Node α) (c : Cursor) :
    (n.moves q c).filterMap Move.advance? = (n.choices c).filterMap (n.advance? q c) := by
  rw [moves, choices]
  simp only [List.filterMap_append, filterMap_priorityMoves, filterMap_wildcardMoves,
    filterMap_plainMoves, filterMap_setMoves]

theorem sizeOf_lt_of_advance? {q : Query} {n : Node α} {c : Cursor} {ch : Choice} {a : Advance α}
    (h : n.advance? q c ch = some a) : sizeOf a.child < sizeOf n := by
  have hmem : a ∈ (n.choices c).filterMap (n.advance? q c) :=
    List.mem_filterMap.2 ⟨ch, mem_choices_of_advance? h, h⟩
  -- a choice leads where some move leads, and moves lead to smaller nodes
  rw [← filterMap_moves] at hmem
  obtain ⟨m, hm, hadvance⟩ := List.mem_filterMap.1 hmem
  refine sizeOf_lt_of_mem_moves hm ?_
  cases m <;> simp [Move.advance?, Move.child?] at hadvance ⊢ <;> rw [← hadvance]

/-! ## The first choice that leads on -/

/-- Trying the ways on from a node, with something done behind each of them, is trying its choices
with the same done. -/
theorem found?_first_moves {β : Type} {q : Query} {n : Node α} {c : Cursor}
    {attempt : { m // m ∈ n.moves q c } → Attempt β} {further : Advance α → Option β}
    (h : ∀ m, (attempt m).found? = m.1.advance?.bind further) :
    (Attempt.first attempt (n.moves q c).attach).found? =
      (n.choices c).findSome? fun ch => (n.advance? q c ch).bind further := by
  calc
    _ = (n.moves q c).attach.findSome? ((fun m => m.advance?.bind further) ∘ Subtype.val) := by
      rw [Attempt.found?_first]
      congr 1
      funext m
      exact h m
    _ = (n.moves q c).findSome? fun m => m.advance?.bind further := by
      rw [← List.findSome?_map, List.attach_map_subtype_val]
    _ = (((n.moves q c).filterMap Move.advance?).filterMap further).head? := by
      rw [List.filterMap_filterMap, List.head?_filterMap]
    _ = (((n.choices c).filterMap (n.advance? q c)).filterMap further).head? := by
      rw [filterMap_moves]
    _ = (n.choices c).findSome? fun ch => (n.advance? q c ch).bind further := by
      rw [List.filterMap_filterMap, List.head?_filterMap]

/-- A search takes the entry of the node at the end of the input, and otherwise the first choice
behind which it finds anything. -/
theorem found?_search (q : Query) (n : Node α) (c : Cursor) (p : Progress) :
    (n.search q c p).found? =
      match n.follow? q c p [] with
      | some way => some way
      | none =>
        (n.choices c).findSome? fun ch =>
          (n.advance? q c ch).bind fun a =>
            (a.child.search q a.cursor (a.progress c.segment p)).found? := by
  rw [search, follow?]
  dsimp only [Attempt.after]
  -- an entry counts at the end of the input only; in all other cases the moves are tried
  cases hvalue : n.value? with
  | some entry =>
    cases hend : c.atEnd with
    | true => rfl
    | false => exact found?_first_moves fun ⟨m, _⟩ => by cases m <;> rfl
  | none =>
    rw [Option.map_none, ite_self]
    exact found?_first_moves fun ⟨m, _⟩ => by cases m <;> rfl

end Node

end Parley
