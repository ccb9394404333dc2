import Parley.Proofs.Search.Choices

/-!
# The match that a search finds

A search tries the choices at every node in their order and goes back to the last node where another
one is left. What it finds is therefore the least of all complete matches, in the order that
compares two matches by their choices at the first node where they part. A match that ends at that
node is before one that goes on.

Main results:

* `Node.found?_search_eq_some_iff` — a search from a node finds the way of the least match;
* `Node.found?_search_eq_none_iff` — it finds nothing exactly if there is no match;
* `search_eq_ok_least` — a search of several graphs finds the least match of the first graph that
  has a match.
-/

namespace Parley

open Text

variable {α : Type}

/-- What a search with the given options goes by in a graph. -/
def SearchOptions.query (options : SearchOptions) (cmp : Comparer) (input : Input) : Query :=
  { comparer := cmp
    sets := options.sets
    input
    defaultWildcard := options.defaultWildcard
    traceVisits := options.trace.search }

/-- The options of a search without sets that nothing holds up. -/
def SearchOptions.unhindered (cmp : Comparer) : SearchOptions :=
  { sets := .empty cmp
    defaultWildcard := "nil"
    recursionLimit := 1
    depth := 0
    expired := false
    trace := .none }

/-- Where a list of choices leads in a graph, if it is a complete match of an input. -/
def Graph.match? (options : SearchOptions) (input : Input) (g : Graph α) (chs : List Choice) :
    Option (Way α) :=
  g.root.follow? (options.query g.comparer input) (.startOf input .message) {} chs

namespace Node

/-- The least match from a node, and the way that it leads. -/
structure Least (q : Query) (n : Node α) (c : Cursor) (p : Progress) (chs : List Choice)
    (way : Way α) : Prop where
  follows : n.follow? q c p chs = some way
  least : ∀ others, (n.follow? q c p others).isSome →
    others = chs ∨ List.Lex Choice.Before chs others

variable {q : Query} {n : Node α} {c : Cursor} {p : Progress}

theorem Least.unique {chs chs' : List Choice} {way way' : Way α} (h : n.Least q c p chs way)
    (h' : n.Least q c p chs' way') : chs = chs' ∧ way = way' := by
  -- each of two least matches is the other one or before it, and not both are before each other
  have hchs : chs = chs' := by
    rcases h.least chs' (by rw [h'.follows]; rfl) with heq | hbefore
    · exact heq.symm
    · rcases h'.least chs (by rw [h.follows]; rfl) with heq | hbefore'
      · exact heq
      · exact absurd hbefore' (List.lex_asymm (fun hab => hab.asymm) hbefore)
  subst hchs
  refine ⟨rfl, Option.some.inj ?_⟩
  rw [← h.follows, h'.follows]

/-- A match that starts with the first choice behind which there is a match, and goes on with the
least match there, is the least match. -/
theorem Least.cons {before after : List Choice} {ch : Choice} {a : Advance α} {chs : List Choice}
    {way : Way α} (hstop : n.follow? q c p [] = none)
    (hsplit : n.choices c = before ++ ch :: after) (hadvance : n.advance? q c ch = some a)
    (hbefore : ∀ d ∈ before, ∀ others, n.follow? q c p (d :: others) = none)
    (h : a.child.Least q a.cursor (a.progress c.segment p) chs way) :
    n.Least q c p (ch :: chs) way := by
  have hfollows : n.follow? q c p (ch :: chs) = some way := by
    rw [follow?, hadvance, Option.bind_some, h.follows]
  refine ⟨hfollows, ?_⟩
  intro others hothers
  cases others with
  | nil =>
    -- the node is not at the end of the input, or it has no entry
    simp [hstop] at hothers
  | cons d others =>
    obtain ⟨way', hway'⟩ := Option.isSome_iff_exists.1 hothers
    obtain ⟨b, hb, hfollow⟩ := Option.bind_eq_some_iff.1 hway'
    -- where does the other match start, compared with this one?
    have hmem := mem_choices_of_advance? hb
    have hsorted := n.pairwise_choices c
    rw [hsplit] at hmem hsorted
    rcases List.mem_append.1 hmem with hd | hd
    · -- earlier, where there is no match
      rw [hbefore d hd others] at hway'
      simp at hway'
    · rcases List.mem_cons.1 hd with rfl | hd
      · -- with the same choice, so that the two part later
        have hsame : b = a := by
          rw [hadvance] at hb
          exact (Option.some.inj hb).symm
        subst hsame
        rcases h.least others (by rw [hfollow]; rfl) with rfl | hlex
        · exact Or.inl rfl
        · exact Or.inr (.cons hlex)
      · -- later, so that the two part here
        have hrest := (List.pairwise_append.1 hsorted).2.1
        have hafter : Choice.Before ch d := (List.pairwise_cons.1 hrest).1 d hd
        exact Or.inr (.rel hafter)

/-- A choice starts no match if nothing is found behind it. -/
theorem follow?_cons_eq_none {ch : Choice}
    (hchild : ∀ a, n.advance? q c ch = some a →
      (a.child.search q a.cursor (a.progress c.segment p)).found? = none →
        ∀ chs, a.child.follow? q a.cursor (a.progress c.segment p) chs = none)
    (h : ((n.advance? q c ch).bind fun a =>
      (a.child.search q a.cursor (a.progress c.segment p)).found?) = none)
    (chs : List Choice) : n.follow? q c p (ch :: chs) = none := by
  rw [follow?]
  cases ha : n.advance? q c ch with
  | none => rfl
  | some a =>
    rw [ha, Option.bind_some] at h
    rw [Option.bind_some]
    exact hchild a ha h chs

/-- A search finds the way of the least match if there is a match, and nothing if there is none. -/
theorem found?_search_spec (q : Query) (n : Node α) (c : Cursor) (p : Progress) :
    (∃ way chs, (n.search q c p).found? = some way ∧ n.Least q c p chs way) ∨
      ((n.search q c p).found? = none ∧ ∀ chs, n.follow? q c p chs = none) := by
  -- induction on the node; the position and the progress change along the way
  induction hsize : sizeOf n using Nat.strongRecOn generalizing n c p with
  | _ size ih =>
    subst hsize
    rw [found?_search]
    cases hstop : n.follow? q c p [] with
    | some way =>
      -- a match that ends here is before all that go on
      left
      refine ⟨way, [], rfl, hstop, ?_⟩
      intro others _
      cases others with
      | nil => exact Or.inl rfl
      | cons d others => exact Or.inr .nil
    | none =>
      -- the search tries the choices, and by the induction it is right about each of them
      have hnothing : ∀ d, ((n.advance? q c d).bind fun a =>
          (a.child.search q a.cursor (a.progress c.segment p)).found?) = none →
          ∀ others, n.follow? q c p (d :: others) = none := by
        intro d hd others
        refine follow?_cons_eq_none ?_ hd others
        intro a ha hnone
        rcases ih _ (sizeOf_lt_of_advance? ha) a.child a.cursor _ rfl with
          ⟨way, -, hsome, -⟩ | ⟨-, hchild⟩
        · rw [hnone] at hsome
          simp at hsome
        · exact hchild
      dsimp only
      cases hfind : (n.choices c).findSome? fun ch => (n.advance? q c ch).bind fun a =>
          (a.child.search q a.cursor (a.progress c.segment p)).found? with
      | some way =>
        left
        obtain ⟨before, ch, after, hsplit, hch, hbefore⟩ := List.findSome?_eq_some_iff.1 hfind
        obtain ⟨a, ha, hfound⟩ := Option.bind_eq_some_iff.1 hch
        rcases ih _ (sizeOf_lt_of_advance? ha) a.child a.cursor (a.progress c.segment p) rfl with
          ⟨way', chs, hsome, hleast⟩ | ⟨hnone, -⟩
        · rw [hfound] at hsome
          obtain rfl := Option.some.inj hsome
          -- nothing is found behind the earlier choices, so that there is no match behind them
          have hearlier : ∀ d ∈ before, ∀ others, n.follow? q c p (d :: others) = none := by
            intro d hd
            exact hnothing d (hbefore d hd)
          exact ⟨way, ch :: chs, rfl, .cons hstop hsplit ha hearlier hleast⟩
        · rw [hfound] at hnone
          simp at hnone
      | none =>
        right
        refine ⟨rfl, ?_⟩
        intro chs
        cases chs with
        | nil => exact hstop
        | cons d others =>
          cases ha : n.advance? q c d with
          | none => rw [follow?, ha, Option.bind_none]
          | some a =>
            -- a choice that leads anywhere was among those tried
            have hd := List.findSome?_eq_none_iff.1 hfind d (mem_choices_of_advance? ha)
            exact hnothing d hd others

theorem found?_search_eq_some_iff {way : Way α} :
    (n.search q c p).found? = some way ↔ ∃ chs, n.Least q c p chs way := by
  rcases found?_search_spec q n c p with ⟨way', chs, hfound, hleast⟩ | ⟨hfound, hnone⟩
  · rw [hfound]
    constructor
    · intro h
      exact ⟨chs, Option.some.inj h ▸ hleast⟩
    · rintro ⟨chs', hleast'⟩
      rw [(hleast.unique hleast').2]
  · rw [hfound]
    constructor
    · intro h
      simp at h
    · rintro ⟨chs, hleast⟩
      have hfollows := hleast.follows
      rw [hnone chs] at hfollows
      simp at hfollows

theorem found?_search_eq_none_iff :
    (n.search q c p).found? = none ↔ ∀ chs, n.follow? q c p chs = none := by
  rcases found?_search_spec q n c p with ⟨way, chs, hfound, hleast⟩ | ⟨hfound, hnone⟩
  · rw [hfound]
    constructor
    · intro h
      simp at h
    · intro h
      have hfollows := hleast.follows
      rw [h chs] at hfollows
      simp at hfollows
  · exact ⟨fun _ => hnone, fun _ => hfound⟩

end Node

/-! ## Searching several graphs -/

/-- What is found where a way of the graph with a number leads. -/
def Way.found (way : Way α) (root : Nat) : Found α :=
  { entry := way.entry
    captures := way.progress.captures
    path := unwords way.progress.trail
    root }

/-- The way that a search of one graph finds. -/
def Graph.firstMatch? (options : SearchOptions) (input : Input) (g : Graph α) : Option (Way α) :=
  (g.root.search (options.query g.comparer input) (.startOf input .message) {}).found?

theorem Graph.firstMatch?_eq_some_iff {options : SearchOptions} {input : Input} {g : Graph α}
    {way : Way α} :
    g.firstMatch? options input = some way ↔
      ∃ chs, g.match? options input chs = some way ∧
        ∀ others, (g.match? options input others).isSome →
          others = chs ∨ List.Lex Choice.Before chs others := by
  rw [Graph.firstMatch?, Node.found?_search_eq_some_iff]
  constructor
  · rintro ⟨chs, hfollows, hleast⟩
    exact ⟨chs, hfollows, hleast⟩
  · rintro ⟨chs, hfollows, hleast⟩
    exact ⟨chs, hfollows, hleast⟩

theorem Graph.firstMatch?_eq_none_iff {options : SearchOptions} {input : Input} {g : Graph α} :
    g.firstMatch? options input = none ↔ ∀ chs, g.match? options input chs = none :=
  Node.found?_search_eq_none_iff

theorem result_searchFrom_cons {options : SearchOptions} (input : Input) (root : Nat)
    (g : Graph α) (graphs : List (Graph α)) (htime : options.expired = false) :
    (searchFrom options input root (g :: graphs)).result =
      match g.firstMatch? options input with
      | some way => .ok (some (way.found root))
      | none => (searchFrom options input (root + 1) graphs).result := by
  rw [searchFrom, htime, if_neg Bool.false_ne_true, Graph.firstMatch?, SearchOptions.query]
  dsimp only
  cases (g.root.search _ (.startOf input .message) {}).found? <;> rfl

/-- Going through graphs finds what the first one that has a match finds. -/
theorem result_searchFrom_eq_some_iff {options : SearchOptions} {input : Input} {root : Nat}
    {graphs : List (Graph α)} {found : Found α} (htime : options.expired = false) :
    (searchFrom options input root graphs).result = .ok (some found) ↔
      ∃ before g after way, graphs = before ++ g :: after ∧
        (∀ b ∈ before, b.firstMatch? options input = none) ∧
        g.firstMatch? options input = some way ∧ found = way.found (root + before.length) := by
  -- induction on the graphs; the number of the first one goes up with each that has no match
  induction graphs generalizing root with
  | nil => simp [searchFrom]
  | cons g graphs ih =>
    rw [result_searchFrom_cons input root g graphs htime]
    constructor
    · intro h
      cases hg : g.firstMatch? options input with
      | some way =>
        rw [hg] at h
        injection h with h
        injection h with h
        exact ⟨[], g, graphs, way, rfl, by simp, hg, h.symm⟩
      | none =>
        rw [hg] at h
        obtain ⟨before, g', after, way, rfl, hbefore, hg', rfl⟩ := ih.1 h
        refine ⟨g :: before, g', after, way, rfl, ?_, hg', ?_⟩
        · intro b hb
          rcases List.mem_cons.1 hb with rfl | hb
          · exact hg
          · exact hbefore b hb
        · rw [List.length_cons, Nat.add_assoc, Nat.add_comm 1]
    · rintro ⟨before, g', after, way, hsplit, hbefore, hg', rfl⟩
      cases before with
      | nil =>
        rw [List.nil_append, List.cons.injEq] at hsplit
        obtain ⟨rfl, rfl⟩ := hsplit
        rw [hg']
        rfl
      | cons b before =>
        rw [List.cons_append, List.cons.injEq] at hsplit
        obtain ⟨rfl, rfl⟩ := hsplit
        rw [hbefore g (List.mem_cons_self ..)]
        refine ih.2 ⟨before, g', after, way, rfl, ?_, hg', ?_⟩
        · intro b hb
          exact hbefore b (List.mem_cons_of_mem g hb)
        · rw [List.length_cons, Nat.add_assoc, Nat.add_comm 1]

/-- Going through graphs finds nothing exactly if none of them has a match. -/
theorem result_searchFrom_eq_none_iff {options : SearchOptions} {input : Input} {root : Nat}
    {graphs : List (Graph α)} (htime : options.expired = false) :
    (searchFrom options input root graphs).result = .ok none ↔
      ∀ g ∈ graphs, g.firstMatch? options input = none := by
  induction graphs generalizing root with
  | nil => simp [searchFrom]
  | cons g graphs ih =>
    rw [result_searchFrom_cons input root g graphs htime, List.forall_mem_cons]
    cases hg : g.firstMatch? options input with
    | some way => simp
    | none => simpa using ih

/-- Going through graphs is given up for want of time only. -/
theorem eq_timeout_of_searchFrom {options : SearchOptions} {input : Input} {root : Nat}
    {graphs : List (Graph α)} {cause : Abort}
    (h : (searchFrom options input root graphs).result = .error cause) : cause = .timeout := by
  induction graphs generalizing root with
  | nil => cases h
  | cons g graphs ih =>
    cases htime : options.expired with
    | true =>
      rw [searchFrom, htime] at h
      exact (Except.error.inj h).symm
    | false =>
      rw [result_searchFrom_cons _ _ _ _ htime] at h
      split at h
      · cases h
      · exact ih h

theorem result_search {options : SearchOptions} (graphs : List (Graph α)) (input : Input)
    (hdepth : options.depth ≤ options.recursionLimit) :
    (search options graphs input).result = (searchFrom options input 0 graphs).result := by
  rw [search, if_neg (by omega)]

/-- A search within its limits comes to an end without being given up. -/
theorem exists_result_search {options : SearchOptions} (graphs : List (Graph α)) (input : Input)
    (hdepth : options.depth ≤ options.recursionLimit) (htime : options.expired = false) :
    ∃ found?, (search options graphs input).result = .ok found? := by
  cases hresult : (search options graphs input).result with
  | ok found? => exact ⟨found?, rfl⟩
  | error cause =>
    rcases search_eq_error_iff.1 ⟨cause, hresult⟩ with h | h
    · omega
    · rw [htime] at h
      exact absurd h.1 Bool.false_ne_true

/-- What a search finds is what the graph that it is from finds. -/
theorem exists_firstMatch?_of_search {options : SearchOptions} {graphs : List (Graph α)}
    {input : Input} {found : Found α}
    (h : (search options graphs input).result = .ok (some found)) :
    ∃ g way, graphs[found.root]? = some g ∧ g.firstMatch? options input = some way ∧
      found = way.found found.root := by
  rw [result_search graphs input (depth_le_of_search_eq_ok h)] at h
  cases htime : options.expired with
  | true =>
    -- once the time is up, nothing is found
    cases graphs with
    | nil => simp [searchFrom] at h
    | cons g graphs => simp [searchFrom, htime] at h
  | false =>
    obtain ⟨before, g, after, way, rfl, -, hg, rfl⟩ := (result_searchFrom_eq_some_iff htime).1 h
    refine ⟨g, way, ?_, hg, rfl⟩
    rw [Way.found, Nat.zero_add, List.getElem?_append_right (Nat.le_refl _), Nat.sub_self]
    rfl

/-- **A search finds the least match of the first graph that has one.** The entry, the texts taken
and the path are those of that match. -/
theorem search_eq_ok_least {options : SearchOptions} {graphs : List (Graph α)} {input : Input}
    (hdepth : options.depth ≤ options.recursionLimit) (htime : options.expired = false) :
    ∃ found?, (search options graphs input).result = .ok found? ∧
      ∀ found, found? = some found ↔
        ∃ before g after chs way, graphs = before ++ g :: after ∧
          (∀ b ∈ before, ∀ others, b.match? options input others = none) ∧
          g.match? options input chs = some way ∧
          (∀ others, (g.match? options input others).isSome →
            others = chs ∨ List.Lex Choice.Before chs others) ∧
          found =
            { entry := way.entry
              captures := way.progress.captures
              path := unwords way.progress.trail
              root := before.length } := by
  obtain ⟨found?, hresult⟩ := exists_result_search graphs input hdepth htime
  refine ⟨found?, hresult, ?_⟩
  intro found
  -- roots are searched one after the other, each for its least choices
  have hfind : found? = some found ↔
      (searchFrom options input 0 graphs).result = .ok (some found) := by
    rw [← result_search graphs input hdepth, hresult, Except.ok.injEq]
  rw [hfind, result_searchFrom_eq_some_iff htime]
  constructor
  · rintro ⟨before, g, after, way, hsplit, hbefore, hg, rfl⟩
    obtain ⟨chs, hfollows, hleast⟩ := Graph.firstMatch?_eq_some_iff.1 hg
    refine ⟨before, g, after, chs, way, hsplit, ?_, hfollows, hleast, ?_⟩
    · intro b hb
      exact Graph.firstMatch?_eq_none_iff.1 (hbefore b hb)
    · rw [Way.found, Nat.zero_add]
  · rintro ⟨before, g, after, chs, way, hsplit, hbefore, hfollows, hleast, rfl⟩
    refine ⟨before, g, after, way, hsplit, ?_, ?_, ?_⟩
    · intro b hb
      exact Graph.firstMatch?_eq_none_iff.2 (hbefore b hb)
    · exact Graph.firstMatch?_eq_some_iff.2 ⟨chs, hfollows, hleast⟩
    · rw [Way.found, Nat.zero_add]

/-- Of two entries that match a greeting, the one of the second graph is not reached, although its
path is before the other's. -/
theorem search_eq_ok_least_greeting :
    let rest : List Token :=
      [.word "<that>", .wildcard .oneOrMore, .word "<topic>", .wildcard .oneOrMore]
    let general := ((Graph.empty .exact).insert (.wildcard .oneOrMore :: rest) "Go on.").1
    let particular := ((Graph.empty .exact).insert (.priority "hello" :: rest) "Hi!").1
    let input := Input.ofTexts "hello" "so" "any"
    (particular.match? (.unhindered .exact) input
        [.preferred, .plain, .wildcard .oneOrMore 1, .plain, .wildcard .oneOrMore 1]).isSome ∧
      ∃ found?, (search (.unhindered .exact) [general, particular] input).result = .ok found? ∧
        ∀ found, found? = some found → found.root = 0 := by
  intro rest general particular input
  refine ⟨by decide +kernel, ?_⟩
  obtain ⟨found?, hresult, hfound⟩ :=
    @search_eq_ok_least String (.unhindered .exact) [general, particular] input (by decide) rfl
  refine ⟨found?, hresult, ?_⟩
  intro found h
  obtain ⟨before, g, after, chs, way, hsplit, hbefore, -, -, rfl⟩ := (hfound found).1 h
  cases before with
  | nil => rfl
  | cons b before =>
    -- the first graph is not before the match, because it has a match itself
    obtain rfl : general = b := (List.cons.inj hsplit).1
    have hgeneral := hbefore general (List.mem_cons_self ..)
      [.wildcard .oneOrMore 1, .plain, .wildcard .oneOrMore 1, .plain, .wildcard .oneOrMore 1]
    exact absurd (congrArg Option.isSome hgeneral) (by decide +kernel)

end Parley
