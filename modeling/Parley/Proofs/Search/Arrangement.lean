import Parley.Category
import Parley.Proofs.Arrangement
import Parley.Proofs.Search.Matching

/-!
# Searching the same entries in another order

The order in which categories were loaded shows in the edges of a graph: which nodes are shared, and
how the words at the edges are spelled. A search does not depend on it if there are no sets. The
choices of a match lead to the same entry with the same texts in every graph with the same entries,
so that the first match of one graph is the first match of the other. Only the path that is shown
may differ, in the spelling of its words.

Main results:

* `Node.Rearranged.exists_advance?`, `Node.Rearranged.exists_follow?` — a choice, and so a match,
  has its counterpart;
* `Graph.Rearranged.sameMatch` — graphs with the same entries have the same first match;
* `search_any_order` — categories with different paths can be loaded in any order.
-/

namespace Parley

open Text

variable {α : Type}

/-! ## What differs in spelling only -/

/-- Whether two stages of a search are the same up to the spelling of labels. -/
structure Progress.Alike (cmp : Comparer) (p p' : Progress) : Prop where
  trail : List.Forall₂ (fun label label' => cmp.equals label label' = true) p.trail p'.trail
  captures : p'.captures = p.captures

/-- Whether two ways are the same up to the spelling of labels. -/
structure Way.Alike (cmp : Comparer) (way way' : Way α) : Prop where
  entry : way'.entry = way.entry
  progress : way.progress.Alike cmp way'.progress

/-- Whether two edges that a choice leads along are the same up to the spelling of labels, with the
same entries behind them. -/
structure Advance.Alike (cmp : Comparer) (a a' : Advance α) : Prop where
  label : cmp.equals a.label a'.label = true
  taken : a'.taken? = a.taken?
  child : a.child.Rearranged cmp a'.child
  cursor : a'.cursor = a.cursor

theorem Progress.Alike.refl (cmp : Comparer) (p : Progress) : p.Alike cmp p :=
  ⟨List.forall₂_same.2 fun label _ => cmp.equals_self label, rfl⟩

theorem Way.Alike.refl (cmp : Comparer) (way : Way α) : way.Alike cmp way :=
  ⟨rfl, .refl cmp way.progress⟩

theorem Advance.Alike.progress {cmp : Comparer} {a a' : Advance α} (h : a.Alike cmp a')
    {p p' : Progress} (hp : p.Alike cmp p') (s : Segment) :
    (a.progress s p).Alike cmp (a'.progress s p') := by
  refine ⟨List.rel_append hp.trail (.cons h.label .nil), ?_⟩
  rw [Advance.progress, Advance.progress, h.taken, hp.captures]

namespace Node

/-! ## Following the same choices -/

variable {q : Query} {n m : Node α} {c : Cursor}

/-- A match ends where a path leads to. -/
theorem exists_valueAt?_of_follow? (hn : n.WellKeyed q.comparer) {p : Progress}
    {chs : List Choice} {way : Way α} (h : n.follow? q c p chs = some way) :
    ∃ path, n.valueAt? q.comparer path = some way.entry := by
  induction chs generalizing n c p with
  | nil =>
    rw [follow?] at h
    split at h
    · obtain ⟨entry, hvalue, rfl⟩ := Option.map_eq_some_iff.1 h
      exact ⟨[], hvalue⟩
    · cases h
  | cons ch chs ih =>
    obtain ⟨a, ha, hrest⟩ := Option.bind_eq_some_iff.1 h
    obtain ⟨t, hstored, hstep⟩ := advance?_cases hn ha
    have hedge : n.step? q.comparer t = some a.child := by
      rcases hstep with ⟨ws, htakes⟩ | hcrosses
      · exact htakes.edge
      · exact hcrosses.edge
    obtain ⟨path, hpath⟩ := ih (hn.of_hasEdge hstored) hrest
    refine ⟨t :: path, ?_⟩
    rw [valueAt?_cons, hedge, Option.bind_some, hpath]

namespace Rearranged

/-- What is done with an edge that leads to an entry is done with its counterpart. -/
theorem exists_map_child? {cmp : Comparer} (h : n.Rearranged cmp m) {text : String}
    {f : Token × Node α → Advance α} (hchild : ∀ edge, (f edge).child = edge.2)
    (hf : ∀ t u d d', cmp.equals t.text u.text = true → d.Rearranged cmp d' →
      (f (t, d)).Alike cmp (f (u, d')))
    {a : Advance α} (ha : (n.child? cmp text).map f = some a) {path : List Token} {entry : α}
    (hentry : a.child.valueAt? cmp path = some entry) :
    ∃ a', (m.child? cmp text).map f = some a' ∧ a.Alike cmp a' := by
  obtain ⟨⟨t, d⟩, hedge, rfl⟩ := Option.map_eq_some_iff.1 ha
  rw [hchild] at hentry
  obtain ⟨u, d', hedge', hlabel, hbelow⟩ := h.exists_child? hedge hentry
  exact ⟨f (u, d'), by rw [hedge', Option.map_some], hf t u d d' hlabel hbelow⟩

/-- **A choice that leads to an entry has its counterpart.** -/
theorem exists_advance? (h : n.Rearranged q.comparer m) {ch : Choice} {a : Advance α}
    (ha : n.advance? q c ch = some a) {path : List Token} {entry : α}
    (hentry : a.child.valueAt? q.comparer path = some entry) :
    ∃ a', m.advance? q c ch = some a' ∧ a.Alike q.comparer a' := by
  obtain ⟨s, ahead⟩ := c
  -- all choices but those for sets go along word edges
  cases ch with
  | preferred =>
    cases ahead with
    | nil => cases ha
    | cons w rest =>
      refine h.exists_map_child? (fun _ => rfl) ?_ ha hentry
      intro t u d d' hlabel hbelow
      exact ⟨hlabel, rfl, hbelow, rfl⟩
  | wildcard w k =>
    rw [advance?] at ha ⊢
    split at ha
    · next hfits =>
      rw [if_pos hfits]
      refine h.exists_map_child? (fun _ => rfl) ?_ ha hentry
      intro t u d d' _ hbelow
      exact ⟨q.comparer.equals_self _, rfl, hbelow, rfl⟩
    · cases ha
  | plain =>
    cases ahead with
    | nil =>
      obtain ⟨separator, hseparator, ha⟩ := Option.bind_eq_some_iff.1 ha
      rw [advance?]
      dsimp only
      rw [hseparator, Option.bind_some]
      refine h.exists_map_child? (fun _ => rfl) ?_ ha hentry
      intro t u d d' _ hbelow
      exact ⟨q.comparer.equals_self _, rfl, hbelow, rfl⟩
    | cons w rest =>
      rw [advance?] at ha ⊢
      dsimp only at ha ⊢
      split at ha
      · cases ha
      · next hplain =>
        rw [if_neg hplain]
        refine h.exists_map_child? (fun _ => rfl) ?_ ha hentry
        intro t u d d' hlabel hbelow
        exact ⟨hlabel, rfl, hbelow, rfl⟩
  | phrase i k =>
    rw [advance?, h.setFree_left.sets_eq_nil] at ha
    cases ha

/-- **A match has its counterpart:** the same choices lead to the same entry with the same texts. -/
theorem exists_follow? (h : n.Rearranged q.comparer m) {p p' : Progress}
    (hp : p.Alike q.comparer p') {chs : List Choice} {way : Way α}
    (hway : n.follow? q c p chs = some way) :
    ∃ way', m.follow? q c p' chs = some way' ∧ way.Alike q.comparer way' := by
  induction chs generalizing n m c p p' with
  | nil =>
    rw [follow?] at hway
    rw [follow?, h.value?_eq]
    split at hway
    · next hend =>
      obtain ⟨entry, hvalue, rfl⟩ := Option.map_eq_some_iff.1 hway
      rw [if_pos hend, hvalue]
      exact ⟨_, rfl, rfl, hp⟩
    · cases hway
  | cons ch chs ih =>
    obtain ⟨a, ha, hrest⟩ := Option.bind_eq_some_iff.1 hway
    obtain ⟨t, hstored, -⟩ := advance?_cases h.keyed_left ha
    -- the way leads to an entry, so that the edge it takes leads to one in the other graph too
    obtain ⟨path, hpath⟩ := exists_valueAt?_of_follow? (h.keyed_left.of_hasEdge hstored) hrest
    obtain ⟨a', ha', halike⟩ := h.exists_advance? ha hpath
    rw [follow?, ha', Option.bind_some, halike.cursor]
    exact ih halike.child (halike.progress hp c.segment) hrest

end Rearranged

end Node

/-! ## Searching -/

namespace Graph

variable {options : SearchOptions} {input : Input} {g g' : Graph α}

/-- Whether two graphs without sets have the same entries. -/
structure Rearranged (g g' : Graph α) : Prop where
  comparer : g'.comparer = g.comparer
  root : g.root.Rearranged g.comparer g'.root

theorem Rearranged.symm (h : g.Rearranged g') : g'.Rearranged g :=
  ⟨h.comparer.symm, h.comparer ▸ h.root.symm⟩

theorem Rearranged.exists_match? (h : g.Rearranged g') {chs : List Choice} {way : Way α}
    (hmatch : g.match? options input chs = some way) :
    ∃ way', g'.match? options input chs = some way' ∧ way.Alike g.comparer way' := by
  rw [match?, h.comparer]
  exact Node.Rearranged.exists_follow? (q := options.query g.comparer input) h.root
    (.refl g.comparer {}) hmatch

/-- Whether two graphs have the same first match of an input: the same choices lead to it, and it is
the same up to the spelling of labels. -/
inductive SameMatch (options : SearchOptions) (input : Input) (g g' : Graph α) : Prop where
  | none (left : g.firstMatch? options input = none) (right : g'.firstMatch? options input = none)
  | some {chs : List Choice} {way way' : Way α} (left : g.firstMatch? options input = some way)
      (right : g'.firstMatch? options input = some way')
      (match_left : g.match? options input chs = some way)
      (match_right : g'.match? options input chs = some way') (alike : way.Alike g.comparer way')

theorem SameMatch.refl (options : SearchOptions) (input : Input) (g : Graph α) :
    g.SameMatch options input g := by
  cases hg : g.firstMatch? options input with
  | none => exact .none hg hg
  | some way =>
    obtain ⟨chs, hmatch, -⟩ := firstMatch?_eq_some_iff.1 hg
    exact .some hg hg hmatch hmatch (.refl g.comparer way)

/-- **Graphs with the same entries have the same first match.** -/
theorem Rearranged.sameMatch (h : g.Rearranged g') (options : SearchOptions) (input : Input) :
    g.SameMatch options input g' := by
  -- a list of choices is a match of both graphs or of none
  have hback : ∀ chs, (g'.match? options input chs).isSome →
      (g.match? options input chs).isSome := by
    intro chs hsome
    obtain ⟨way', hmatch'⟩ := Option.isSome_iff_exists.1 hsome
    obtain ⟨way, hmatch, -⟩ := h.symm.exists_match? hmatch'
    rw [hmatch]
    rfl
  cases hg : g.firstMatch? options input with
  | none =>
    refine .none hg (firstMatch?_eq_none_iff.2 fun chs => ?_)
    rw [← Option.not_isSome_iff_eq_none]
    intro hsome
    have hmatch := hback chs hsome
    rw [firstMatch?_eq_none_iff.1 hg chs] at hmatch
    cases hmatch
  | some way =>
    obtain ⟨chs, hmatch, hleast⟩ := firstMatch?_eq_some_iff.1 hg
    obtain ⟨way', hmatch', halike⟩ := h.exists_match? hmatch
    have hleast' : g'.firstMatch? options input = some way' := firstMatch?_eq_some_iff.2
      ⟨chs, hmatch', fun others hothers => hleast others (hback others hothers)⟩
    exact .some hg hleast' hmatch hmatch' halike

end Graph

/-- Whether two ways are the same match of the graphs that are in one place of two lists: the same
choices lead along both, and they are the same up to the spelling of labels. -/
def SameWay (options : SearchOptions) (input : Input) (graphs graphs' : List (Graph α)) (i : Nat)
    (way way' : Way α) : Prop :=
  ∃ g g' chs, graphs[i]? = some g ∧ graphs'[i]? = some g' ∧
    g.match? options input chs = some way ∧ g'.match? options input chs = some way' ∧
    way.Alike g.comparer way'

/-- Whether two searches for an input end alike: both are given up for the same cause, both find
nothing, or both find the same match in the same place. -/
inductive SameFinding (options : SearchOptions) (input : Input) (graphs graphs' : List (Graph α)) :
    Prop where
  | failed {cause : Abort} (left : (search options graphs input).result = .error cause)
      (right : (search options graphs' input).result = .error cause) :
      SameFinding options input graphs graphs'
  | nothing (left : (search options graphs input).result = .ok none)
      (right : (search options graphs' input).result = .ok none) :
      SameFinding options input graphs graphs'
  | found {i : Nat} {way way' : Way α} (same : SameWay options input graphs graphs' i way way')
      (left : (search options graphs input).result = .ok (some (way.found i)))
      (right : (search options graphs' input).result = .ok (some (way'.found i))) :
      SameFinding options input graphs graphs'

section Finding

variable {options : SearchOptions} {input : Input} {graphs graphs' : List (Graph α)}

theorem SameWay.cons {i : Nat} {way way' : Way α} (g g' : Graph α)
    (h : SameWay options input graphs graphs' i way way') :
    SameWay options input (g :: graphs) (g' :: graphs') (i + 1) way way' := h

/-- Going through graphs that have the same first matches finds the same. -/
theorem sameWay_of_searchFrom (htime : options.expired = false)
    (h : List.Forall₂ (Graph.SameMatch options input) graphs graphs') (root : Nat) :
    ((searchFrom options input root graphs).result = .ok none ∧
      (searchFrom options input root graphs').result = .ok none) ∨
    ∃ i way way', SameWay options input graphs graphs' i way way' ∧
      (searchFrom options input root graphs).result = .ok (some (way.found (root + i))) ∧
      (searchFrom options input root graphs').result = .ok (some (way'.found (root + i))) := by
  induction h generalizing root with
  | nil => exact Or.inl ⟨rfl, rfl⟩
  | @cons g g' graphs graphs' hfirst _ ih =>
    rw [result_searchFrom_cons input root g graphs htime,
      result_searchFrom_cons input root g' graphs' htime]
    cases hfirst with
    -- the graphs without a match are passed over on both sides, so that the root is the same
    | none left right =>
      rw [left, right]
      refine (ih (root + 1)).imp_right ?_
      rintro ⟨i, way, way', hsame, hleft, hright⟩
      refine ⟨i + 1, way, way', hsame.cons g g', ?_, ?_⟩
      · rw [hleft, Nat.add_right_comm, Nat.add_assoc]
      · rw [hright, Nat.add_right_comm, Nat.add_assoc]
    | @some chs way way' left right match_left match_right alike =>
      rw [left, right]
      exact Or.inr ⟨0, way, way', ⟨g, g', chs, rfl, rfl, match_left, match_right, alike⟩, rfl, rfl⟩

/-- Searches of graphs that have the same first matches end alike. -/
theorem sameFinding_of_forall₂ (h : List.Forall₂ (Graph.SameMatch options input) graphs graphs') :
    SameFinding options input graphs graphs' := by
  by_cases hdepth : options.depth ≤ options.recursionLimit
  · have hleft := result_search graphs input hdepth
    have hright := result_search graphs' input hdepth
    cases htime : options.expired with
    | true =>
      -- the time is up before the first graph, if there is one
      cases h with
      | nil => exact .nothing hleft hright
      | cons _ _ =>
        rw [searchFrom, htime, if_pos rfl] at hleft hright
        exact .failed hleft hright
    | false =>
      rcases sameWay_of_searchFrom htime h 0 with ⟨hl, hr⟩ | ⟨i, way, way', hsame, hl, hr⟩
      · exact .nothing (hleft.trans hl) (hright.trans hr)
      · rw [Nat.zero_add] at hl hr
        exact .found hsame (hleft.trans hl) (hright.trans hr)
  · have hdeep : options.depth > options.recursionLimit := Nat.lt_of_not_le hdepth
    refine @SameFinding.failed _ _ _ _ _ .recursionLimit ?_ ?_
    · rw [search, if_pos hdeep]
    · rw [search, if_pos hdeep]

/-- A graph can be exchanged for one with the same entries. -/
theorem Graph.Rearranged.sameFinding {g g' : Graph α} (h : g.Rearranged g')
    (options : SearchOptions) (input : Input) (before after : List (Graph α)) :
    SameFinding options input (before ++ g :: after) (before ++ g' :: after) := by
  refine sameFinding_of_forall₂ (List.rel_append ?_ (.cons (h.sameMatch options input) ?_))
  · exact List.forall₂_same.2 fun b _ => .refl options input b
  · exact List.forall₂_same.2 fun b _ => .refl options input b

end Finding

/-! ## Loading categories -/

/-- Whether a pattern refers to a set. -/
def Pattern.refersToSet (p : Pattern) : Bool :=
  p.any fun
    | .set _ => true
    | _ => false

/-- The patterns of a category, those that it leaves out apart. -/
def Category.patterns (c : Category) : List Pattern :=
  c.pattern :: (c.that?.toList ++ c.topic?.toList)

/-- What a category adds to a graph, where it stands under a topic or none. -/
def Category.entry (config : Config) (c : Category × Option String) : List Token × Template :=
  (c.1.path config c.2, c.1.template)

theorem Pattern.isSet_of_mem_tokens {config : Config} {p : Pattern} (hp : p.refersToSet = false)
    {t : Token} (ht : t ∈ p.tokens config) : t.isSet = false := by
  obtain ⟨item, hitem, ht⟩ := List.mem_flatMap.1 ht
  cases item with
  | word text =>
    obtain rfl := List.mem_singleton.1 ht
    exact Token.isSet_ofText text
  | property name =>
    obtain ⟨w, -, rfl⟩ := List.mem_map.1 ht
    rfl
  | set name =>
    rw [refersToSet, List.any_eq_false] at hp
    exact absurd rfl (hp (.set name) hitem)

/-- The path of a category whose patterns do not refer to sets has no tokens for sets. -/
theorem Category.isSet_of_mem_path {config : Config} {topicName? : Option String} {c : Category}
    (hc : ∀ p ∈ c.patterns, p.refersToSet = false) {t : Token}
    (ht : t ∈ c.path config topicName?) : t.isSet = false := by
  obtain ⟨pattern, that?, topic?, template⟩ := c
  rw [patterns, List.forall_mem_cons] at hc
  simp only [path, compilePath, List.mem_append, List.mem_cons] at ht
  rcases ht with ht | rfl | ht | rfl | ht
  · exact Pattern.isSet_of_mem_tokens hc.1 ht
  · rfl
  · cases that? with
    | none =>
      obtain rfl := List.mem_singleton.1 ht
      rfl
    | some that => exact Pattern.isSet_of_mem_tokens (hc.2 that (by simp)) ht
  · rfl
  · cases topic? with
    | none =>
      rw [topicTokens] at ht
      split at ht
      · obtain rfl := List.mem_singleton.1 ht
        rfl
      · obtain ⟨w, -, rfl⟩ := List.mem_map.1 ht
        exact Token.isSet_ofText w
    | some topic => exact Pattern.isSet_of_mem_tokens (hc.2 topic (by simp)) ht

/-- **The order in which categories are loaded does not matter,** if their patterns do not refer to
sets and no two of their paths are the same. Beside whatever other graphs, the two graphs are
searched alike for every input: the searches are given up for the same cause, both find nothing, or
the same choices lead both to the same template with the same texts, along labels that are the same
one by one. The listings have the same templates in the same order. -/
theorem search_any_order {cmp : Comparer} {config : Config}
    {cs cs' : List (Category × Option String)} (hperm : cs.Perm cs')
    (hsets : ∀ c ∈ cs, ∀ p ∈ c.1.patterns, p.refersToSet = false)
    (hpaths : cs.Pairwise fun c d =>
      samePath cmp (c.1.path config c.2) (d.1.path config d.2) = false) :
    let g := Graph.insertAll cmp (cs.map (Category.entry config))
    let g' := Graph.insertAll cmp (cs'.map (Category.entry config))
    (∀ options input before after,
      SameFinding options input (before ++ g :: after) (before ++ g' :: after)) ∧
    g.listing.map Prod.snd = g'.listing.map Prod.snd := by
  intro g g'
  have hroot : g.root.Rearranged cmp g'.root := by
    refine Graph.rearranged_insertAll (hperm.map _) ?_ (List.pairwise_map.2 hpaths)
    intro entry hentry t ht
    obtain ⟨c, hc, rfl⟩ := List.mem_map.1 hentry
    exact Category.isSet_of_mem_path (hsets c hc) ht
  have hcomparer : g.comparer = cmp := Graph.comparer_insertAll _
  have hgraph : g.Rearranged g' := by
    refine ⟨?_, ?_⟩
    · rw [hcomparer]
      exact Graph.comparer_insertAll _
    · rwa [hcomparer]
  refine ⟨?_, hroot.map_snd_listing "" ""⟩
  intro options input before after
  exact hgraph.sameFinding options input before after

/-- Of two greetings that share a word, the first one spells it in the path that is shown. -/
theorem search_any_order_greetings :
    let cs : List (Category × Option String) :=
      [({ pattern := [.word "HELLO"], template := .ofText "Hi!" }, none),
        ({ pattern := [.word "hello", .word "THERE"], template := .ofText "Hello." }, none)]
    let g := Graph.insertAll .ignoreCase (cs.map (Category.entry {}))
    let g' := Graph.insertAll .ignoreCase (cs.reverse.map (Category.entry {}))
    let input := Input.ofTexts "Hello there" "nil" "unknown"
    let shown := fun graph : Graph Template =>
      (search (.unhindered .ignoreCase) [graph] input).result.toOption.map
        fun found? => found?.map Found.path
    SameFinding (.unhindered .ignoreCase) input [g] [g'] ∧
      shown g = some (some "HELLO THERE <that> * <topic> *") ∧
      shown g' = some (some "hello THERE <that> * <topic> *") := by
  intro cs g g' input shown
  obtain ⟨hfinding, -⟩ :=
    @search_any_order .ignoreCase {} cs _ cs.reverse_perm.symm (by decide) (by decide +kernel)
  exact ⟨hfinding (.unhindered .ignoreCase) input [] [], by decide +kernel, by decide +kernel⟩

end Parley
