import Parley.Proofs.Arrangement
import Parley.Proofs.Flattening

/-!
# The path that is shown is the path that is listed

A search puts the path of its match together from the edges that it goes along, and drops what it
tried in vain. A listing puts the paths of all entries together from the edges of the whole tree.
Edges are found by keys and shown as they were added first, so both have to show one edge in the
same way. For separators this is not clear: a search shows them as the library writes them.

Only paths of categories are added to the graphs of a bot. Their first separators are the real ones,
and these are never spelled otherwise. What the name of a topic contains comes behind them.

Main results:

* `Graph.BuiltUnder.exists_listed` — in every graph, what a search finds is listed under the path
  that it shows, up to the spelling of separators;
* `Node.Spelled.update` — to add the path of a category spells no separator otherwise;
* `mem_listing_of_search` — what a search finds is listed under the path that it shows.
-/

namespace Parley

open Text

variable {α : Type} {cmp : Comparer}

/-! ## Labels of edges -/

/-- One word is its own text. -/
theorem Text.unwords_singleton (w : String) : unwords [w] = w := by
  simp [unwords, joinWords]

/-- The first two words of a text can be taken for one. -/
theorem Text.unwords_cons_cons (v w : String) (rest : List String) :
    unwords (v :: w :: rest) = unwords ((v ++ " " ++ w) :: rest) := by
  apply String.toList_injective
  cases rest with
  | nil => simp [unwords, joinWords]
  | cons u rest => simp [unwords, joinWords]

/-- The label of a set has its brackets, even if the set has no name. -/
theorem Token.setLabel_ne_empty (name : String) : setLabel name ≠ "" := by
  intro h
  have hhead := congrArg (fun s => s.toList.head?) h
  simp [setLabel] at hhead

namespace Node

/-- A path that is continued by labels that are not empty is their text. -/
theorem foldl_extendPath {labels : List String} (h : ∀ l ∈ labels, l ≠ "") :
    labels.foldl extendPath "" = unwords labels := by
  -- a path that is not empty stands for its first label from then on
  have hlater : ∀ (rest : List String) (path : String), path ≠ "" →
      rest.foldl extendPath path = unwords (path :: rest) := by
    intro rest
    induction rest with
    | nil => exact fun path _ => (unwords_singleton path).symm
    | cons label rest ih =>
      intro path hpath
      have hextend : extendPath path label = path ++ " " ++ label := by
        rw [extendPath, if_neg (by simpa using hpath)]
      rw [List.foldl_cons, hextend, unwords_cons_cons, ih]
      simp
  cases labels with
  | nil => rfl
  | cons label rest =>
    rw [List.foldl_cons]
    exact hlater rest label (h label List.mem_cons_self)

variable {n child : Node α} {a : α}

/-! ## Listing -/

/-- The sets of a node are listed one after the other. -/
theorem listingSets_eq_flatMap (path : String) (ss : List (String × Node α)) :
    listingSets path ss =
      ss.flatMap fun e => e.2.listing (extendPath path (Token.setLabel e.1)) := by
  induction ss with
  | nil => rfl
  | cons e rest ih =>
    obtain ⟨name, n⟩ := e
    rw [listingSets, ih, List.flatMap_cons]

/-- At a node, its own entry is listed, and what is listed behind its edges. -/
theorem mem_listing_of_value? {path : String} (h : n.value? = some a) :
    (path, a) ∈ n.listing path := by
  obtain ⟨value?, ws, ss⟩ := n
  obtain rfl : value? = some a := h
  simp [listing]

/-- What is listed behind an edge is listed at the node. -/
theorem mem_listing_of_hasEdge {path : String} {t : Token} {e : String × α}
    (hedge : n.HasEdge t child) (h : e ∈ child.listing (extendPath path t.display)) :
    e ∈ n.listing path := by
  obtain ⟨value?, ws, ss⟩ := n
  rw [listing, List.mem_append, List.mem_append]
  cases hedge with
  | word stored =>
    -- the order of the words does not matter to what is listed
    have hwords := List.mem_map_of_mem (f := fun edge : String × Token × Node α =>
      (edge.1, edge.2.2.listing (extendPath path edge.2.1.display))) stored
    rw [← listingWords_eq_map] at hwords
    exact Or.inl (Or.inr (List.mem_flatMap.2 ⟨_, mem_inKeyOrder.2 hwords, h⟩))
  | set stored =>
    rw [listingSets_eq_flatMap]
    exact Or.inr (List.mem_flatMap.2 ⟨_, stored, h⟩)

end Node

/-! ## Separators that are spelled as the library does -/

/-- The segment behind a token of a path: the separator of a segment leads into the next one. -/
def Segment.behind (cmp : Comparer) (s : Segment) (t : Token) : Segment :=
  if s.separator?.any fun separator => !t.isSet && cmp.equals t.text separator then s.advance
  else s

/-- Whether a token can be seen, and is spelled as the library does if it is the separator of a
segment. -/
structure Token.IsSpelled (cmp : Comparer) (s : Segment) (t : Token) : Prop where
  shown : t.display ≠ ""
  separator : ∀ separator, s.separator? = some separator → t.IsSeparator cmp separator →
    t.display = separator

/-- Whether all tokens of a path from a segment on are spelled in this way. -/
def SpelledPath (cmp : Comparer) : Segment → List Token → Prop
  | _, [] => True
  | s, t :: path => t.IsSpelled cmp s ∧ SpelledPath cmp (s.behind cmp t) path

/-- Whether all edges at and below a node, which is in a segment, are spelled in this way. -/
inductive Node.Spelled (cmp : Comparer) : Segment → Node α → Prop where
  | mk {s : Segment} {n : Node α} (tokens : ∀ t child, n.HasEdge t child → t.IsSpelled cmp s)
      (below : ∀ t child, n.HasEdge t child → Spelled cmp (s.behind cmp t) child) :
      Spelled cmp s n

namespace Segment

variable {s : Segment} {t u : Token} {separator : String}

/-- There are two separators. -/
theorem separator_eq_or (h : s.separator? = some separator) :
    separator = Token.thatSeparator ∨ separator = Token.topicSeparator := by
  cases s with
  | message => exact Or.inl (Option.some.inj h).symm
  | that => exact Or.inr (Option.some.inj h).symm
  | topic => cases h

/-- Any spelling of the separator leads into the next segment. -/
theorem behind_of_isSeparator (hseparator : s.separator? = some separator)
    (h : t.IsSeparator cmp separator) : s.behind cmp t = s.advance := by
  obtain ⟨hset, hequals⟩ := h
  simp [behind, hseparator, hset, hequals]

/-- Every other token stays in its segment. -/
theorem behind_of_not_isSeparator
    (h : ∀ separator, s.separator? = some separator → ¬ t.IsSeparator cmp separator) :
    s.behind cmp t = s := by
  refine if_neg ?_
  cases hs : s.separator? with
  | none => simp
  | some separator =>
    intro hany
    rw [Option.any_some, Bool.and_eq_true, Bool.not_eq_true'] at hany
    exact h separator hs hany

/-- No set is a separator. -/
theorem behind_set (s : Segment) (h : t.isSet = true) : s.behind cmp t = s := by
  refine behind_of_not_isSeparator ?_
  rintro separator - ⟨hplain, -⟩
  rw [h] at hplain
  cases hplain

/-- Tokens that match lead into the same segment. -/
theorem behind_congr (s : Segment) (h : t.matchesUnder cmp u = true) :
    s.behind cmp t = s.behind cmp u := by
  obtain ⟨hset, hkey⟩ := Token.matchesUnder_iff.1 h
  have hsame : (fun separator => !t.isSet && cmp.equals t.text separator) =
      fun separator => !u.isSet && cmp.equals u.text separator := by
    funext separator
    rw [hset, Comparer.equals, Comparer.equals, hkey]
  rw [behind, behind, hsame]

end Segment

/-! ### The paths of categories -/

/-- Whether a path is that of a category whose patterns are the contents of some markup. It may
stand under any topic, and the properties of the bot may be any. -/
def IsCompiled (path : List Token) : Prop :=
  ∃ (config : Config) (pattern : Pattern) (that? topic? : Option Pattern)
    (topicName? : Option String),
    pattern.IsRead ∧ (∀ p ∈ that?, p.IsRead) ∧ (∀ p ∈ topic?, p.IsRead) ∧
      path = compilePath config pattern that? topic? topicName?

/-- A word that is not empty can be seen. -/
theorem Token.display_ofText_ne_empty {w : String} (h : w ≠ "") : (ofText w).display ≠ "" := by
  rwa [display_of_plain (isSet_ofText w), text_ofText]

/-- All tokens of a pattern can be seen. -/
theorem Pattern.IsRead.display_ne_empty {p : Pattern} (h : p.IsRead) (config : Config) :
    ∀ t ∈ p.tokens config, t.display ≠ "" := by
  obtain ⟨markup, hparse⟩ := h
  intro t ht
  obtain ⟨item, hitem, ht⟩ := List.mem_flatMap.1 ht
  cases item with
  | word w =>
    -- a word of markup is not empty
    obtain ⟨text, -, hword⟩ := exists_text_of_ofPieces hparse hitem
    rw [List.mem_singleton.1 ht]
    refine Token.display_ofText_ne_empty ?_
    rintro rfl
    exact ne_nil_of_mem_breakWords hword rfl
  | property name =>
    obtain ⟨w, -, rfl⟩ := List.mem_map.1 ht
    intro hempty
    have hhead := congrArg (fun s => s.toList.head?) hempty
    simp [Token.display] at hhead
  | set name =>
    rw [List.mem_singleton.1 ht]
    exact Token.setLabel_ne_empty name

/-- All tokens of the second part of a path can be seen; by default it is a wildcard. -/
theorem display_ne_empty_of_mem_thatTokens {that? : Option Pattern} (h : ∀ p ∈ that?, p.IsRead)
    (config : Config) : ∀ t ∈ thatTokens config that?, t.display ≠ "" := by
  cases that? with
  | some p => exact (h p rfl).display_ne_empty config
  | none =>
    intro t ht
    rw [List.mem_singleton.1 ht]
    decide

/-- All tokens of the third part of a path can be seen, also if it is the name of a topic. -/
theorem display_ne_empty_of_mem_topicTokens {topic? : Option Pattern}
    (h : ∀ p ∈ topic?, p.IsRead) (config : Config) (topicName? : Option String) :
    ∀ t ∈ topicTokens config topicName? topic?, t.display ≠ "" := by
  cases topic? with
  | some p => exact (h p rfl).display_ne_empty config
  | none =>
    intro t ht
    rw [topicTokens] at ht
    split at ht
    · rw [List.mem_singleton.1 ht]
      decide
    · obtain ⟨w, hw, rfl⟩ := List.mem_map.1 ht
      refine Token.display_ofText_ne_empty ?_
      rintro rfl
      exact (isWord_of_mem_words hw).1 rfl

/-- In front of a path there may be tokens that can be seen and are not the separator. -/
theorem SpelledPath.append {s : Segment} {path rest : List Token}
    (hshown : ∀ t ∈ path, t.display ≠ "")
    (hnot : ∀ t ∈ path, ∀ separator, s.separator? = some separator →
      ¬ t.IsSeparator cmp separator)
    (hrest : SpelledPath cmp s rest) : SpelledPath cmp s (path ++ rest) := by
  induction path with
  | nil => exact hrest
  | cons t path ih =>
    rw [List.forall_mem_cons] at hshown hnot
    rw [List.cons_append, SpelledPath, Segment.behind_of_not_isSeparator hnot.1]
    refine ⟨⟨hshown.1, ?_⟩, ih hshown.2 hnot.2⟩
    intro separator hseparator hsame
    exact absurd hsame (hnot.1 separator hseparator)

/-- A separator that is written as it should be leads into the next segment. -/
theorem SpelledPath.separator {s : Segment} {separator : String} {rest : List Token}
    (hseparator : s.separator? = some separator) (hrest : SpelledPath cmp s.advance rest) :
    SpelledPath cmp s (.word separator :: rest) := by
  have hsame : (Token.word separator).IsSeparator cmp separator := ⟨rfl, cmp.equals_self _⟩
  rw [SpelledPath, Segment.behind_of_isSeparator hseparator hsame]
  refine ⟨⟨?_, ?_⟩, hrest⟩
  · rcases Segment.separator_eq_or hseparator with rfl | rfl <;> decide
  · intro other hother _
    rw [hseparator] at hother
    exact Option.some.inj hother

/-- **The path of a category is spelled as it should be,** whatever the name of its topic is. -/
theorem IsCompiled.spelledPath {path : List Token} (h : IsCompiled path) (cmp : Comparer) :
    SpelledPath cmp .message path := by
  obtain ⟨config, pattern, that?, topic?, topicName?, hpattern, hthat, htopic, rfl⟩ := h
  refine .append (hpattern.display_ne_empty config) ?_ (.separator rfl ?_)
  · intro t ht separator hseparator
    exact hpattern.not_isSeparator (Segment.separator_eq_or hseparator) config t ht
  refine .append (display_ne_empty_of_mem_thatTokens hthat config) ?_ (.separator rfl ?_)
  · intro t ht separator hseparator
    exact not_isSeparator_of_mem_thatTokens hthat (Segment.separator_eq_or hseparator) config t ht
  -- no separator is behind the topic, and so none is spelled wrongly
  rw [← List.append_nil (topicTokens config topicName? topic?)]
  refine .append (display_ne_empty_of_mem_topicTokens htopic config topicName?) ?_ trivial
  intro t _ separator hseparator
  cases hseparator

/-! ### Adding paths -/

namespace Node

variable {s : Segment} {n child : Node α}

/-- The empty node has no edges. -/
theorem not_hasEdge_empty {t : Token} : ¬ (empty : Node α).HasEdge t child := by
  intro h
  cases h with
  | word stored => exact absurd stored (by simp [empty, words])
  | set stored => exact absurd stored (by simp [empty, sets])

/-- The empty node has no edge that is spelled wrongly. -/
theorem spelled_empty (s : Segment) : (empty : Node α).Spelled cmp s :=
  .mk (fun _ _ h => absurd h not_hasEdge_empty) (fun _ _ h => absurd h not_hasEdge_empty)

/-- An entry adds no edges and takes none away. -/
theorem hasEdge_setEntry_iff {t : Token} {a : α} :
    (Node.setEntry a n).HasEdge t child ↔ n.HasEdge t child := by
  obtain ⟨v | v, ws, ss⟩ := n
  all_goals
    constructor
    all_goals
      intro h
      cases h with
      | word stored => exact .word stored
      | set stored => exact .set stored

/-- A node is spelled as it should be with or without an entry. -/
theorem Spelled.setEntry (a : α) (h : n.Spelled cmp s) : (Node.setEntry a n).Spelled cmp s := by
  obtain ⟨tokens, below⟩ := h
  exact .mk (fun t m hm => tokens t m (hasEdge_setEntry_iff.1 hm))
    (fun t m hm => below t m (hasEdge_setEntry_iff.1 hm))

/-- The edges of a node after a path was added: those that were there, and the one that the path
goes along. That one was there with a token that leads into the same segment, or it is new. -/
theorem HasEdge.of_update {f : Node α → Node α} {t u : Token} {path : List Token}
    (hn : n.WellKeyed cmp) (h : (Node.update cmp f (t :: path) n).HasEdge u child) :
    n.HasEdge u child ∨ ∃ m, child = Node.update cmp f path m ∧
      (∀ s : Segment, s.behind cmp u = s.behind cmp t) ∧
      (n.HasEdge u m ∨ u = t ∧ m = empty) := by
  obtain ⟨value?, ws, ss⟩ := n
  obtain ⟨keyed, -, -, -, -⟩ := hn
  rw [Node.update] at h
  split at h
  · next ht =>
    cases h with
    | word stored => exact Or.inl (.word stored)
    | @set name _ stored =>
      rcases mem_updateSet stored with hold | ⟨m, k, hmem, heq⟩ | heq
      · exact Or.inl (.set hold)
      · obtain ⟨rfl, rfl⟩ := Prod.mk.inj heq
        refine Or.inr ⟨k, rfl, fun s => ?_, Or.inl (.set hmem)⟩
        rw [s.behind_set ht, s.behind_set rfl]
      · obtain ⟨rfl, rfl⟩ := Prod.mk.inj heq
        have hset : Token.set t.text = t := by
          cases t <;> first | rfl | cases ht
        rw [hset]
        exact Or.inr ⟨empty, rfl, fun s => rfl, Or.inr ⟨rfl, rfl⟩⟩
  · next ht =>
    cases h with
    | set stored => exact Or.inl (.set stored)
    | @word key _ _ stored =>
      rcases mem_updateWord stored with hold | ⟨v, m, hmem, heq⟩ | heq
      · exact Or.inl (.word hold)
      · obtain ⟨rfl, rfl⟩ := Prod.mk.inj (Prod.mk.inj heq).2
        -- the edge that is there is under the key of the token
        obtain ⟨hset, hkey⟩ := keyed _ hmem
        have hmatches : u.matchesUnder cmp t = true := by
          rw [Token.matchesUnder_iff, Bool.eq_false_iff.2 ht]
          exact ⟨hset, hkey⟩
        exact Or.inr ⟨m, rfl, fun s => s.behind_congr hmatches, Or.inl (.word hmem)⟩
      · obtain ⟨rfl, rfl⟩ := Prod.mk.inj (Prod.mk.inj heq).2
        exact Or.inr ⟨empty, rfl, fun s => rfl, Or.inr ⟨rfl, rfl⟩⟩

/-- **To add a path that is spelled as it should be leaves everything spelled so.** An edge that is
there keeps its token, which leads into the same segment as the one of the path. -/
theorem Spelled.update {f : Node α → Node α}
    (hf : ∀ s, ∀ m : Node α, m.Spelled cmp s → (f m).Spelled cmp s) {path : List Token}
    (hpath : SpelledPath cmp s path) (hn : n.WellKeyed cmp) (h : n.Spelled cmp s) :
    (Node.update cmp f path n).Spelled cmp s := by
  -- nodes that were not there start from the empty one
  induction path generalizing n s with
  | nil => exact hf s n h
  | cons t path ih =>
    obtain ⟨tokens, below⟩ := h
    obtain ⟨ht, hpath⟩ := hpath
    refine .mk ?_ ?_
    · intro u child hedge
      -- an edge that was there keeps its token, a new one has that of the path
      rcases hedge.of_update hn with hold | ⟨m, -, -, hold | ⟨rfl, -⟩⟩
      · exact tokens u child hold
      · exact tokens u m hold
      · exact ht
    · intro u child hedge
      rcases hedge.of_update hn with hold | ⟨m, rfl, hbehind, hold | ⟨rfl, rfl⟩⟩
      · exact below u child hold
      · have hm := below u m hold
        rw [hbehind] at hm ⊢
        exact ih hpath (hn.of_hasEdge hold) hm
      · exact ih hpath wellKeyed_empty (spelled_empty _)

end Node

/-- The graphs that can be built by adding entries under the paths of categories, and by adding the
nodes of such paths. -/
inductive Graph.Compiled : Graph α → Prop where
  | empty (cmp : Comparer) : (Graph.empty cmp : Graph α).Compiled
  | insert {g : Graph α} {path : List Token} (a : α) (hpath : IsCompiled path) :
      g.Compiled → (g.insert path a).1.Compiled
  | touch {g : Graph α} {path : List Token} (hpath : IsCompiled path) :
      g.Compiled → (g.touch path).Compiled

namespace Graph.Compiled

variable {g : Graph α}

/-- What is built from the paths of categories is built from paths. -/
theorem builtUnder (h : g.Compiled) : g.BuiltUnder g.comparer := by
  induction h with
  | empty cmp => exact .empty
  | insert a _ _ ih => exact .insert _ a ih
  | touch _ _ ih => exact .touch _ ih

/-- In a graph of categories every separator is spelled as the library does. -/
theorem spelled (h : g.Compiled) : g.root.Spelled g.comparer .message := by
  induction h with
  | empty cmp => exact Node.spelled_empty _
  | insert a hpath hg ih =>
    exact ih.update (fun _ _ hm => hm.setEntry a) (hpath.spelledPath _) hg.builtUnder.wellKeyed
  | touch hpath hg ih =>
    exact ih.update (fun _ _ hm => hm) (hpath.spelledPath _) hg.builtUnder.wellKeyed

/-- Additions one after the other build such a graph if each of the paths is that of a category. -/
theorem of_insertAll {entries : List (List Token × α)} (h : ∀ e ∈ entries, IsCompiled e.1) :
    (insertAll cmp entries).Compiled := by
  -- the last entry is the one that is added last
  induction entries using List.reverseRecOn with
  | nil => exact .empty cmp
  | append_singleton entries entry ih =>
    rw [insertAll_concat]
    rw [List.forall_mem_append] at h
    exact .insert entry.2 (h.2 entry (List.mem_singleton_self _)) (ih h.1)

end Graph.Compiled

/-! ## What a search shows of the edges to an entry -/

/-- How a search shows an edge from a node in a segment: by the label of its token, or by the
separator of the segment, if the token is one of its spellings. -/
def Token.ShownAs (cmp : Comparer) (s : Segment) (t : Token) (label : String) : Prop :=
  label = t.display ∨ s.separator? = some label ∧ t.IsSeparator cmp label

/-- Whether a label that is listed is the one that is shown, or another spelling of the separator
that is shown. -/
def LabelSpells (cmp : Comparer) (shown listed : String) : Prop :=
  listed = shown ∨
    (shown = Token.thatSeparator ∨ shown = Token.topicSeparator) ∧ cmp.equals listed shown = true

/-- Whether an entry is stored behind edges from a node on, which is in a segment. A search shows
them in one way, and a listing lists their own labels. -/
inductive Node.ShowsBehind (cmp : Comparer) :
    Segment → Node α → List String → List String → α → Prop where
  | own {s : Segment} {n : Node α} {a : α} (value : n.value? = some a) :
      ShowsBehind cmp s n [] [] a
  | edge {s : Segment} {n child : Node α} {a : α} {t : Token} {label : String}
      {shown listed : List String} (edge : n.HasEdge t child) (shownAs : t.ShownAs cmp s label)
      (below : ShowsBehind cmp (s.behind cmp t) child shown listed a) :
      ShowsBehind cmp s n (label :: shown) (t.display :: listed) a

namespace Token.ShownAs

variable {s : Segment} {t : Token} {label : String}

/-- What is listed for an edge spells what is shown for it. -/
theorem labelSpells (h : t.ShownAs cmp s label) : LabelSpells cmp label t.display := by
  rcases h with rfl | ⟨hseparator, hset, hequals⟩
  · exact Or.inl rfl
  · rw [display_of_plain hset]
    exact Or.inr ⟨Segment.separator_eq_or hseparator, hequals⟩

/-- A token that is spelled as the library does is shown as it is listed. -/
theorem eq_display (h : t.ShownAs cmp s label) (ht : t.IsSpelled cmp s) : label = t.display := by
  rcases h with rfl | ⟨hseparator, hsame⟩
  · rfl
  · exact (ht.separator label hseparator hsame).symm

end Token.ShownAs

namespace Node.ShowsBehind

variable {s : Segment} {n : Node α} {a : α} {shown listed : List String}

/-- **An entry is listed under the labels of the edges to it.** -/
theorem mem_listing (h : n.ShowsBehind cmp s shown listed a) (path : String) :
    (listed.foldl extendPath path, a) ∈ n.listing path := by
  -- induction on the edges, with the path to the node in front of them
  induction h generalizing path with
  | own value => exact mem_listing_of_value? value
  | edge edge _ _ ih => exact mem_listing_of_hasEdge edge (ih _)

/-- The labels listed on the way to an entry spell those that are shown, one by one. -/
theorem labelSpells (h : n.ShowsBehind cmp s shown listed a) :
    List.Forall₂ (LabelSpells cmp) shown listed := by
  induction h with
  | own => exact .nil
  | edge _ shownAs _ ih => exact .cons shownAs.labelSpells ih

/-- **Where separators are spelled as the library does,** what is shown is what is listed, and none
of the labels is empty. -/
theorem eq_of_spelled (h : n.ShowsBehind cmp s shown listed a) (hn : n.Spelled cmp s) :
    shown = listed ∧ ∀ label ∈ shown, label ≠ "" := by
  induction h with
  | own => simp
  | edge edge shownAs _ ih =>
    obtain ⟨tokens, below⟩ := hn
    have ht := tokens _ _ edge
    obtain ⟨rfl, hne⟩ := ih (below _ _ edge)
    obtain rfl := shownAs.eq_display ht
    exact ⟨rfl, List.forall_mem_cons.2 ⟨ht.shown, hne⟩⟩

end Node.ShowsBehind

/-! ## The edges of a match -/

namespace Node

variable {q : Query} {c : Cursor} {n : Node α} {a : Advance α}

/-- Every edge that a search goes along is shown as it is listed, or it is the one for the separator
of the segment, which leads into the next one. -/
theorem exists_hasEdge_of_advance? (hn : n.WellKeyed q.comparer) {ch : Choice}
    (h : n.advance? q c ch = some a) :
    ∃ t, n.HasEdge t a.child ∧ t.ShownAs q.comparer c.segment a.label ∧
      a.cursor.segment = c.segment.behind q.comparer t := by
  obtain ⟨t, hedge, hstep⟩ := advance?_cases hn h
  refine ⟨t, hedge, ?_⟩
  rcases hstep with ⟨ws, htakes⟩ | hcrosses
  · -- a token that takes words is no separator
    have hbehind : c.segment.behind q.comparer t = c.segment := by
      refine Segment.behind_of_not_isSeparator ?_
      intro separator hseparator
      exact htakes.takes.not_isSeparator (Segment.separator_eq_or hseparator)
    rw [hbehind, ← htakes.segment]
    exact ⟨Or.inl htakes.label, rfl⟩
  · rw [Segment.behind_of_isSeparator hcrosses.behind hcrosses.separator, hcrosses.cursor]
    exact ⟨Or.inr ⟨hcrosses.behind, hcrosses.separator⟩, rfl⟩

/-- The trail of a match goes on with what is shown of the edges to its entry. -/
theorem exists_showsBehind_of_follow? (hn : n.WellKeyed q.comparer) {p : Progress}
    {chs : List Choice} {way : Way α} (h : n.follow? q c p chs = some way) :
    ∃ shown listed, way.progress.trail = p.trail ++ shown ∧
      n.ShowsBehind q.comparer c.segment shown listed way.entry := by
  induction chs generalizing n c p with
  | nil =>
    rw [follow?] at h
    split at h
    · obtain ⟨entry, hvalue, rfl⟩ := Option.map_eq_some_iff.1 h
      exact ⟨[], [], (List.append_nil _).symm, .own hvalue⟩
    · cases h
  | cons ch chs ih =>
    rw [follow?] at h
    obtain ⟨a, ha, hfollow⟩ := Option.bind_eq_some_iff.1 h
    obtain ⟨t, hedge, hlabel, hsegment⟩ := exists_hasEdge_of_advance? hn ha
    obtain ⟨shown, listed, htrail, hbehind⟩ := ih (hn.of_hasEdge hedge) hfollow
    rw [hsegment] at hbehind
    refine ⟨a.label :: shown, t.display :: listed, ?_, .edge hedge hlabel hbehind⟩
    rw [htrail, Advance.progress, List.append_assoc, List.singleton_append]

end Node

/-! ## What a search finds -/

/-- **What a search finds in a graph is listed there under the path that it shows,** but for the
spelling of separators. The graph may have any paths. -/
theorem Graph.BuiltUnder.exists_listed {options : SearchOptions} {input : Input} {g : Graph α}
    {way : Way α} (hg : g.BuiltUnder g.comparer) (h : g.firstMatch? options input = some way) :
    ∃ listed, List.Forall₂ (LabelSpells g.comparer) way.progress.trail listed ∧
      (listed.foldl Node.extendPath "", way.entry) ∈ g.listing := by
  obtain ⟨chs, hfollow, -⟩ := Graph.firstMatch?_eq_some_iff.1 h
  obtain ⟨shown, listed, htrail, hbehind⟩ :=
    Node.exists_showsBehind_of_follow? hg.wellKeyed hfollow
  rw [List.nil_append] at htrail
  rw [htrail]
  exact ⟨listed, hbehind.labelSpells, hbehind.mem_listing ""⟩

/-- In a graph of categories, the way of a match is listed with its path and its entry. -/
theorem Graph.Compiled.mem_listing {options : SearchOptions} {input : Input} {g : Graph α}
    {way : Way α} (hg : g.Compiled) (h : g.firstMatch? options input = some way) :
    (unwords way.progress.trail, way.entry) ∈ g.listing := by
  obtain ⟨chs, hfollow, -⟩ := Graph.firstMatch?_eq_some_iff.1 h
  obtain ⟨shown, listed, htrail, hbehind⟩ :=
    Node.exists_showsBehind_of_follow? hg.builtUnder.wellKeyed hfollow
  obtain ⟨rfl, hne⟩ := hbehind.eq_of_spelled hg.spelled
  have hpath : unwords way.progress.trail = shown.foldl Node.extendPath "" := by
    rw [htrail, List.nil_append, Node.foldl_extendPath hne]
  rw [hpath]
  exact hbehind.mem_listing ""

/-- **What a search finds is listed under the path that it shows,** in the graph that it is from.
The graphs have to be built from the paths of categories. Nothing is said about the input, the sets
and the options, nor about the names of topics. -/
theorem mem_listing_of_search {options : SearchOptions} {graphs : List (Graph α)} {input : Input}
    {found : Found α} (hgraphs : ∀ g ∈ graphs, g.Compiled)
    (h : (search options graphs input).result = .ok (some found)) :
    ∃ g, graphs[found.root]? = some g ∧ (found.path, found.entry) ∈ g.listing := by
  obtain ⟨g, way, hroot, hg, hfound⟩ := exists_firstMatch?_of_search h
  have hlisted := (hgraphs g (List.mem_of_getElem? hroot)).mem_listing hg
  refine ⟨g, hroot, ?_⟩
  rw [hfound]
  exact hlisted

/-- The second pattern is found along the edges of the first, which are spelled otherwise, and
behind a set that takes a phrase of two words in vain. -/
theorem mem_listing_of_search_color :
    let first : Pattern := [.word "Hello", .set "Color"]
    let second : Pattern := [.word "HELLO", .set "COLOR", .word "sky"]
    let graph := Graph.insertAll .ignoreCase
      [(compilePath {} first none none (some "<THAT> <TOPIC>"), 1),
        (compilePath {} second none none none, 2)]
    let options := { SearchOptions.unhindered .ignoreCase with
      sets := (SetTable.empty .ignoreCase).insert "cOLOR" (.ofPhrases .ignoreCase
        ["blue", "blue sky"]) }
    Pattern.parse "Hello <set>Color</set>" = .ok first ∧
      Pattern.parse "HELLO <set>COLOR</set> sky" = .ok second ∧
      ∃ found, (search options [graph] (.ofTexts "hello blue SKY" "so" "any")).result =
          .ok (some found) ∧
        (found.path, found.entry) ∈ graph.listing ∧
        (found.path, found.entry) = ("Hello <set>Color</set> sky <that> * <topic> *", 2) := by
  intro first second graph options
  have hfirst : Pattern.parse "Hello <set>Color</set>" = .ok first := by decide +kernel
  have hsecond : Pattern.parse "HELLO <set>COLOR</set> sky" = .ok second := by decide +kernel
  have hgraphs : ∀ g ∈ [graph], g.Compiled := by
    intro g hg
    rw [List.mem_singleton.1 hg]
    refine .of_insertAll (List.forall_mem_cons.2 ⟨?_, List.forall_mem_singleton.2 ?_⟩)
    · exact ⟨_, first, none, none, _, ⟨_, hfirst⟩, nofun, nofun, rfl⟩
    · exact ⟨_, second, none, none, _, ⟨_, hsecond⟩, nofun, nofun, rfl⟩
  have hfound : (search options [graph] (.ofTexts "hello blue SKY" "so" "any")).result.toOption.map
      (fun found? => found?.map fun found => (found.path, found.entry)) =
        some (some ("Hello <set>Color</set> sky <that> * <topic> *", 2)) := by
    decide +kernel
  obtain ⟨found?, hresult⟩ := exists_result_search [graph]
    (.ofTexts "hello blue SKY" "so" "any") (show options.depth ≤ options.recursionLimit by decide)
    rfl
  rw [hresult] at hfound
  obtain ⟨found, rfl, hshown⟩ := Option.map_eq_some_iff.1 (Option.some.inj hfound)
  obtain ⟨g, hroot, hlisted⟩ := mem_listing_of_search hgraphs hresult
  obtain rfl : g = graph := List.mem_singleton.1 (List.mem_of_getElem? hroot)
  exact ⟨hfirst, hsecond, found, hresult, hlisted, hshown⟩

/-- A path with another spelling of a separator is listed so, and shown otherwise. -/
example :
    let path : List Token :=
      [.word "HI", .word "<THAT>", .wildcard .oneOrMore, .word "<topic>", .wildcard .oneOrMore]
    let graph := ((Graph.empty .ignoreCase).insert path ()).1
    graph.listing = [("HI <THAT> * <topic> *", ())] ∧
      (search (.unhindered .ignoreCase) [graph] (.ofTexts "hi" "so" "any")).result.toOption.map
        (fun found? => found?.map Found.path) = some (some "HI <that> * <topic> *") := by
  decide +kernel

end Parley
