import Parley.Proofs.Search.Listing
import Parley.Walk

/-!
# What a walk hands out

A walk through a graph keeps a stack of nodes, and hands out entries one by one. All together they
are what the walk by recursion gives: at each node its own entry, then what is behind the edges for
words and wildcards in the order of their keys, and then what is behind the edges for sets in the
order in which they were added. What the stack holds is, at any moment, what is still to come.

In a graph that was built, edges that leave a node have tokens that do not match, so that no two
entries have the same path, and every entry is handed out for its path once.

Main results:

* `Walk.yields` — a walk yields what is behind the nodes of its stack, one after the other;
* `Node.WellKeyed.exists_mem_preorder`, `Node.WellKeyed.pairwise_preorder` — every entry has its
  place, and no two have the same path;
* `Node.length_preorder` — there are as many places as entries;
* `Graph.walk_yields_preorder` — all of this for the graphs that can be built.
-/

namespace Parley

open Text

variable {α : Type} {cmp : Comparer}

namespace Node

/-! ## The walk by recursion -/

/-- The edges of a node in the order of a listing: those for words and wildcards, in the order of
their keys, and then those for sets, in the order in which they were added. -/
def edges (n : Node α) : List (Token × Node α) :=
  (inKeyOrder n.words).map Prod.snd ++ n.sets.map fun edge => (.set edge.1, edge.2)

/-- The edges of a listing are all edges of the node. -/
theorem mem_edges_iff {n child : Node α} {t : Token} :
    (t, child) ∈ n.edges ↔ n.HasEdge t child := by
  rw [edges, List.mem_append, List.mem_map, List.mem_map]
  constructor
  · rintro (⟨⟨key, u, m⟩, hmem, heq⟩ | ⟨⟨name, m⟩, hmem, heq⟩)
    · obtain ⟨rfl, rfl⟩ := Prod.mk.inj heq
      exact .word (mem_inKeyOrder.1 hmem)
    · obtain ⟨rfl, rfl⟩ := Prod.mk.inj heq
      exact .set hmem
  · intro h
    cases h with
    | word stored => exact Or.inl ⟨_, mem_inKeyOrder.2 stored, rfl⟩
    | set stored => exact Or.inr ⟨_, stored, rfl⟩

/-- An edge leads to a smaller node. -/
theorem sizeOf_lt_of_hasEdge {n child : Node α} {t : Token} (h : n.HasEdge t child) :
    sizeOf child < sizeOf n := by
  cases h with
  | word stored =>
    obtain ⟨value?, ws, ss⟩ := n
    have hmem := List.sizeOf_lt_of_mem stored
    simp only [words, Prod.mk.sizeOf_spec] at hmem
    simp only [Node.mk.sizeOf_spec]
    omega
  | set stored => exact sizeOf_lt_of_mem_sets stored

/-- The entries at and below a node, each with the tokens of the edges to it: first the entry of the
node, then those behind its edges. -/
def preorder (n : Node α) : List (List Token × α) :=
  n.value?.toList.map (fun a => ([], a)) ++
    n.edges.attach.flatMap fun ⟨(t, child), _⟩ =>
      child.preorder.map fun entry => (t :: entry.1, entry.2)
termination_by sizeOf n
decreasing_by exact sizeOf_lt_of_hasEdge (mem_edges_iff.1 ‹_›)

/-- The entry of a node and then those behind its edges, without mention of their sizes. -/
theorem preorder_eq (n : Node α) :
    n.preorder = n.value?.toList.map (fun a => ([], a)) ++
      n.edges.flatMap fun edge =>
        edge.2.preorder.map fun entry => (edge.1 :: entry.1, entry.2) := by
  rw [preorder]
  congr 1
  exact (List.flatMap_subtype fun _ _ => rfl).trans (by rw [List.unattach_attach])

/-- An entry is at the node, or behind the first token of its path. -/
theorem mem_preorder {n : Node α} {path : List Token} {a : α} :
    (path, a) ∈ n.preorder ↔ path = [] ∧ n.value? = some a ∨
      ∃ t child rest, n.HasEdge t child ∧ (rest, a) ∈ child.preorder ∧ path = t :: rest := by
  rw [preorder_eq, List.mem_append, List.mem_map, List.mem_flatMap]
  constructor
  · rintro (⟨b, hb, heq⟩ | ⟨⟨t, child⟩, hedge, hentry⟩)
    · obtain ⟨rfl, rfl⟩ := Prod.mk.inj heq
      exact Or.inl ⟨rfl, Option.mem_toList.1 hb⟩
    · obtain ⟨⟨rest, b⟩, hrest, heq⟩ := List.mem_map.1 hentry
      obtain ⟨rfl, rfl⟩ := Prod.mk.inj heq
      exact Or.inr ⟨t, child, rest, mem_edges_iff.1 hedge, hrest, rfl⟩
  · rintro (⟨rfl, hvalue⟩ | ⟨t, child, rest, hedge, hrest, rfl⟩)
    · exact Or.inl ⟨a, Option.mem_toList.2 hvalue, rfl⟩
    · exact Or.inr ⟨(t, child), mem_edges_iff.2 hedge, List.mem_map.2 ⟨(rest, a), hrest, rfl⟩⟩

/-! ## Paths as text -/

/-- A path continued by the tokens of edges. -/
def extendPathBy (path : String) (tokens : List Token) : String :=
  (tokens.map Token.display).foldl extendPath path

/-- What a walk has to hand out at and below a node that some path leads to. -/
def shown (path : String) (n : Node α) : List (String × α) :=
  n.preorder.map fun entry => (extendPathBy path entry.1, entry.2)

/-- The branches of a walk are the edges, each with its path. -/
theorem branches_eq (path : String) (n : Node α) :
    n.branches path = n.edges.map fun edge => (extendPath path edge.1.display, edge.2) := by
  rw [branches, edges, List.map_append, List.map_map, List.map_map]
  rfl

/-- What is handed out at a node is its own entry, and then what is behind its edges. -/
theorem shown_eq (path : String) (n : Node α) :
    n.shown path = n.value?.toList.map (fun a => (path, a)) ++
      (n.branches path).flatMap fun branch => branch.2.shown branch.1 := by
  rw [shown, preorder_eq, List.map_append, List.map_map, List.map_flatMap, branches_eq,
    List.flatMap_map]
  congr 1
  refine List.flatMap_congr fun edge _ => ?_
  rw [List.map_map]
  rfl

/-- What is listed at a node is its own entry and what is listed at its branches. -/
theorem listing_eq_flatMap (path : String) (n : Node α) :
    n.listing path = n.value?.toList.map (fun a => (path, a)) ++
      (n.branches path).flatMap fun branch => branch.2.listing branch.1 := by
  obtain ⟨value?, ws, ss⟩ := n
  have hwords : inKeyOrder (listingWords path ws) = (inKeyOrder ws).map fun edge =>
      (edge.1, edge.2.2.listing (extendPath path edge.2.1.display)) := by
    rw [listingWords_eq_map]
    exact (map_inKeyOrder (fun edge : Token × Node α =>
      edge.2.listing (extendPath path edge.1.display)) ws).symm
  rw [listing, hwords, listingSets_eq_flatMap, branches, List.flatMap_append, List.flatMap_map,
    List.flatMap_map, List.flatMap_map, List.append_assoc]
  rfl

/-- A listing is what a walk has to hand out. -/
theorem listing_eq_shown (path : String) (n : Node α) : n.listing path = n.shown path := by
  induction hsize : sizeOf n using Nat.strongRecOn generalizing n path with
  | _ size ih =>
    subst hsize
    rw [listing_eq_flatMap, shown_eq, branches_eq, List.flatMap_map, List.flatMap_map]
    congr 1
    refine List.flatMap_congr fun edge hedge => ?_
    exact ih _ (sizeOf_lt_of_hasEdge (mem_edges_iff.1 hedge)) _ _ rfl

/-! ## Every entry has its place -/

section WellKeyed

variable {n child : Node α} {t : Token}

/-- An edge of a well-keyed node is the one that its token leads to. -/
theorem WellKeyed.step?_of_hasEdge (hn : n.WellKeyed cmp) (h : n.HasEdge t child) :
    n.step? cmp t = some child := by
  cases h with
  | word stored => exact (hn.of_child? (hn.child?_of_mem stored).2).2.2.1
  | set stored => exact (hn.of_sets stored).1

/-- What leads on is an edge with a token that matches. -/
theorem WellKeyed.exists_hasEdge (hn : n.WellKeyed cmp) (h : n.step? cmp t = some child) :
    ∃ u, n.HasEdge u child ∧ u.matchesUnder cmp t = true := by
  rw [step?] at h
  split at h
  · next ht =>
    obtain ⟨⟨name, m⟩, hfind, rfl⟩ := Option.map_eq_some_iff.1 h
    have hequals := List.find?_some hfind
    refine ⟨.set name, .set (List.mem_of_find?_eq_some hfind), ?_⟩
    rw [Token.matchesUnder, ht]
    exact hequals
  · next ht =>
    obtain ⟨⟨u, m⟩, hchild, rfl⟩ := Option.map_eq_some_iff.1 h
    obtain ⟨plain, hkey, -, -⟩ := hn.of_child? hchild
    refine ⟨u, .of_child? hchild, ?_⟩
    rw [Token.matchesUnder_iff, plain, hkey]
    exact ⟨(Bool.eq_false_iff.2 ht).symm, rfl⟩

/-- Edges that leave a node have tokens that do not match. -/
theorem WellKeyed.pairwise_edges (hn : n.WellKeyed cmp) :
    n.edges.Pairwise fun e e' => e.1.matchesUnder cmp e'.1 = false := by
  obtain ⟨value?, ws, ss⟩ := n
  obtain ⟨tokens, keys, names, -, -⟩ := hn
  rw [edges, words, sets, List.pairwise_append, List.pairwise_map, List.pairwise_map]
  refine ⟨?_, ?_, ?_⟩
  · -- word edges have different keys, and the order does not matter
    have hperm : (inKeyOrder ws).Perm ws := List.mergeSort_perm ..
    refine ((hperm.pairwise_iff fun {e e'} hne => Ne.symm hne).2 keys).imp_of_mem ?_
    intro e e' he he' hne
    have hkey := (tokens e (mem_inKeyOrder.1 he)).2
    have hkey' := (tokens e' (mem_inKeyOrder.1 he')).2
    refine Bool.eq_false_iff.2 fun hmatches => hne ?_
    rw [← hkey, ← hkey']
    exact (Token.matchesUnder_iff.1 hmatches).2
  · refine names.imp fun {e e'} hne => ?_
    rw [Token.matchesUnder]
    exact hne
  · intro e he e' he'
    obtain ⟨edge, hedge, rfl⟩ := List.mem_map.1 he
    obtain ⟨edge', -, rfl⟩ := List.mem_map.1 he'
    rw [Token.matchesUnder, (tokens edge (mem_inKeyOrder.1 hedge)).1]
    rfl

/-- What is handed out with a path is the entry of that path. -/
theorem WellKeyed.valueAt?_of_mem_preorder (hn : n.WellKeyed cmp) {path : List Token} {a : α}
    (h : (path, a) ∈ n.preorder) : n.valueAt? cmp path = some a := by
  induction path generalizing n with
  | nil =>
    rcases mem_preorder.1 h with ⟨-, hvalue⟩ | ⟨t, child, rest, -, -, heq⟩
    · exact hvalue
    · cases heq
  | cons t path ih =>
    rcases mem_preorder.1 h with ⟨heq, -⟩ | ⟨u, child, rest, hedge, hrest, heq⟩
    · cases heq
    · obtain ⟨rfl, rfl⟩ := List.cons.inj heq
      rw [valueAt?_cons, hn.step?_of_hasEdge hedge, Option.bind_some]
      exact ih (hn.of_hasEdge hedge) hrest

/-- **Every entry has its place:** it is handed out with a path that is the same as its own. -/
theorem WellKeyed.exists_mem_preorder (hn : n.WellKeyed cmp) {path : List Token} {a : α}
    (h : n.valueAt? cmp path = some a) :
    ∃ shown, (shown, a) ∈ n.preorder ∧ samePath cmp shown path = true := by
  induction path generalizing n with
  | nil => exact ⟨[], mem_preorder.2 (Or.inl ⟨rfl, h⟩), rfl⟩
  | cons t path ih =>
    rw [valueAt?_cons] at h
    obtain ⟨child, hstep, hvalue⟩ := Option.bind_eq_some_iff.1 h
    obtain ⟨u, hedge, hmatches⟩ := hn.exists_hasEdge hstep
    obtain ⟨shown, hmem, hsame⟩ := ih (hn.of_hasEdge hedge) hvalue
    refine ⟨u :: shown, mem_preorder.2 (Or.inr ⟨u, child, shown, hedge, hmem, rfl⟩), ?_⟩
    rw [samePath, hmatches, hsame]
    rfl

/-- **No two entries are handed out with the same path.** -/
theorem WellKeyed.pairwise_preorder (hn : n.WellKeyed cmp) :
    n.preorder.Pairwise fun entry entry' => samePath cmp entry.1 entry'.1 = false := by
  induction hsize : sizeOf n using Nat.strongRecOn generalizing n with
  | _ size ih =>
    subst hsize
    rw [preorder_eq, List.pairwise_append, List.pairwise_flatMap]
    refine ⟨?_, ⟨?_, ?_⟩, ?_⟩
    · -- the entry of the node is one or none
      cases n.value? with
      | none => exact .nil
      | some a => exact List.pairwise_singleton ..
    · rintro ⟨t, child⟩ hedge
      have hedge := mem_edges_iff.1 hedge
      refine List.pairwise_map.2 ((ih _ (sizeOf_lt_of_hasEdge hedge)
        (hn.of_hasEdge hedge) rfl).imp fun hdiffers => ?_)
      rw [samePath, hdiffers, Bool.and_false]
    · -- behind different edges, the first tokens tell the paths apart
      refine hn.pairwise_edges.imp fun {e e'} hdiffers => ?_
      intro entry hentry entry' hentry'
      obtain ⟨rest, -, rfl⟩ := List.mem_map.1 hentry
      obtain ⟨rest', -, rfl⟩ := List.mem_map.1 hentry'
      rw [samePath, hdiffers, Bool.false_and]
    · intro entry hentry entry' hentry'
      obtain ⟨a, -, rfl⟩ := List.mem_map.1 hentry
      obtain ⟨edge, -, hentry'⟩ := List.mem_flatMap.1 hentry'
      obtain ⟨rest, -, rfl⟩ := List.mem_map.1 hentry'
      rfl

end WellKeyed

/-! ## The number of entries -/

/-- Below some words there are as many entries as below each of them in sum. -/
theorem sizeWords_eq_total (ws : List (String × Token × Node α)) :
    sizeWords ws = total (fun edge => edge.2.2.size) ws := by
  induction ws with
  | nil => rfl
  | cons edge ws ih => rw [sizeWords, ih, total]

/-- The same for sets. -/
theorem sizeSets_eq_total (ss : List (String × Node α)) :
    sizeSets ss = total (fun edge => edge.2.size) ss := by
  induction ss with
  | nil => rfl
  | cons edge ss ih => rw [sizeSets, ih, total]

/-- The entries at a node and below its edges, in one sum. -/
theorem size_eq (n : Node α) :
    n.size = n.value?.toList.length + total (fun edge => edge.2.size) n.edges := by
  obtain ⟨value?, ws, ss⟩ := n
  have hordered := total_perm (fun edge : String × Token × Node α => edge.2.2.size)
    (List.mergeSort_perm ws fun a b => decide (a.1 ≤ b.1))
  rw [size, sizeWords_eq_total, sizeSets_eq_total, ← hordered, edges, total_append, total_map,
    total_map, Nat.add_assoc]
  rfl

/-- What a list has on behalf of its members has as many members together. -/
theorem length_flatMap_eq_total {β γ : Type} {f : β → List γ} {g : β → Nat} {l : List β}
    (h : ∀ b ∈ l, (f b).length = g b) : (l.flatMap f).length = total g l := by
  induction l with
  | nil => rfl
  | cons b l ih =>
    obtain ⟨hb, hl⟩ := List.forall_mem_cons.1 h
    rw [List.flatMap_cons, List.length_append, hb, ih hl, total]

/-- There are as many places as entries. -/
theorem length_preorder (n : Node α) : n.preorder.length = n.size := by
  induction hsize : sizeOf n using Nat.strongRecOn generalizing n with
  | _ size ih =>
    subst hsize
    rw [preorder_eq, size_eq, List.length_append, List.length_map]
    congr 1
    refine length_flatMap_eq_total fun edge hedge => ?_
    rw [List.length_map]
    exact ih _ (sizeOf_lt_of_hasEdge (mem_edges_iff.1 hedge)) _ rfl

end Node

/-! ## Walks -/

namespace Walk

/-- What a walk hands out: the entry of each call, up to the call that has none. -/
inductive Yields : Walk α → List (String × α) → Prop where
  | done {walk : Walk α} (call : walk.next? = none) : walk.Yields []
  | entry {walk left : Walk α} {entry : String × α} {entries : List (String × α)}
      (call : walk.next? = some (entry, left)) (rest : left.Yields entries) :
      walk.Yields (entry :: entries)

variable {walk : Walk α} {entries : List (String × α)}

/-- What a walk hands out is what is collected from it. -/
theorem Yields.toList_eq (h : walk.Yields entries) : walk.toList = entries := by
  induction h with
  | done call =>
    rw [toList]
    split
    · rfl
    · next hcall => rw [call] at hcall; cases hcall
  | entry call _ ih =>
    rw [toList]
    split
    · next hcall => rw [call] at hcall; cases hcall
    · next hcall =>
      rw [call] at hcall
      obtain ⟨rfl, rfl⟩ := Prod.mk.inj (Option.some.inj hcall)
      rw [ih]

/-- A walk that is asked at a node without an entry goes on behind the node. -/
theorem Yields.of_next?_eq {other : Walk α} (h : other.Yields entries)
    (hnext : walk.next? = other.next?) : walk.Yields entries := by
  cases h with
  | done call => exact .done (hnext.trans call)
  | entry call rest => exact .entry (hnext.trans call) rest

/-- **A walk yields what is behind the nodes of its stack,** one node after the other. -/
theorem yields (walk : Walk α) :
    walk.Yields (walk.stack.flatMap fun entry => entry.2.shown entry.1) := by
  -- induction on what is left of the walk, which each visit makes smaller
  induction hweight : walk.weight using Nat.strongRecOn generalizing walk with
  | _ weight ih =>
    subst hweight
    obtain ⟨_ | ⟨⟨path, n⟩, rest⟩⟩ := walk
    · exact .done (by rw [next?])
    · have hbehind := ih _ (weight_pushEdges_lt path n rest) ⟨n.pushEdges path rest⟩ rfl
      simp only [Node.pushEdges_eq, List.flatMap_append] at hbehind
      rw [List.flatMap_cons, Node.shown_eq, List.append_assoc]
      cases hvalue : n.value? with
      | none =>
        refine hbehind.of_next?_eq ?_
        rw [next?, hvalue, Node.pushEdges_eq]
      | some a =>
        refine .entry ?_ hbehind
        rw [next?, hvalue, Node.pushEdges_eq]

end Walk

namespace Graph

/-- What is collected from a walk through a graph is the listing of the graph. -/
theorem toList_walk (g : Graph α) : g.walk.toList = g.listing := by
  rw [(Walk.yields g.walk).toList_eq, listing, Node.listing_eq_shown]
  exact List.flatMap_singleton ..

/-- As many entries are listed as there are. -/
theorem length_listing (g : Graph α) : g.listing.length = g.size := by
  rw [listing, Node.listing_eq_shown, Node.shown, List.length_map, Node.length_preorder]
  rfl

end Graph

/-! ## Graphs of tokens that can be seen -/

/-- A token with a text can be seen. -/
theorem Token.display_ne_empty {t : Token} (h : t.text ≠ "") : t.display ≠ "" := by
  cases hset : t.isSet with
  | false =>
    rw [display_of_plain hset]
    exact h
  | true =>
    cases t with
    | set name => exact setLabel_ne_empty name
    | word | priority | wildcard => cases hset

namespace Node

/-- Every edge at and below a node has a token with a property. -/
inductive TokensHave (P : Token → Prop) : Node α → Prop where
  | mk {n : Node α} (tokens : ∀ t child, n.HasEdge t child → P t)
      (below : ∀ t child, n.HasEdge t child → TokensHave P child) : TokensHave P n

variable {P : Token → Prop} {n : Node α}

/-- The empty node has no edges to look at. -/
theorem tokensHave_empty : (empty : Node α).TokensHave P :=
  .mk (fun _ _ h => absurd h not_hasEdge_empty) (fun _ _ h => absurd h not_hasEdge_empty)

/-- An entry adds no token. -/
theorem TokensHave.setEntry (a : α) (h : n.TokensHave P) : (Node.setEntry a n).TokensHave P := by
  obtain ⟨tokens, below⟩ := h
  exact .mk (fun t m hm => tokens t m (hasEdge_setEntry_iff.1 hm))
    (fun t m hm => below t m (hasEdge_setEntry_iff.1 hm))

/-- A path of tokens with the property adds edges with such tokens only. -/
theorem TokensHave.update {f : Node α → Node α}
    (hf : ∀ m : Node α, m.TokensHave P → (f m).TokensHave P) {path : List Token}
    (hpath : ∀ t ∈ path, P t) (hn : n.WellKeyed cmp) (h : n.TokensHave P) :
    (Node.update cmp f path n).TokensHave P := by
  -- nodes that were not there start from the empty one
  induction path generalizing n with
  | nil => exact hf n h
  | cons t path ih =>
    obtain ⟨ht, hrest⟩ := List.forall_mem_cons.1 hpath
    obtain ⟨tokens, below⟩ := h
    refine .mk ?_ ?_
    · intro u child hedge
      rcases HasEdge.of_update hn hedge with hold | ⟨m, -, -, hold | ⟨rfl, -⟩⟩
      · exact tokens u child hold
      · exact tokens u m hold
      · exact ht
    · intro u child hedge
      rcases HasEdge.of_update hn hedge with hold | ⟨m, rfl, -, hold | ⟨-, rfl⟩⟩
      · exact below u child hold
      · exact ih hrest (hn.of_hasEdge hold) (below u m hold)
      · exact ih hrest wellKeyed_empty tokensHave_empty

/-- The tokens on the way to an entry are those of edges. -/
theorem TokensHave.of_mem_preorder (h : n.TokensHave P) {path : List Token} {a : α}
    (hpath : (path, a) ∈ n.preorder) : ∀ t ∈ path, P t := by
  induction path generalizing n with
  | nil => nofun
  | cons t path ih =>
    obtain ⟨tokens, below⟩ := h
    rcases mem_preorder.1 hpath with ⟨heq, -⟩ | ⟨u, child, rest, hedge, hrest, heq⟩
    · cases heq
    · obtain ⟨rfl, rfl⟩ := List.cons.inj heq
      exact List.forall_mem_cons.2 ⟨tokens t child hedge, ih (below t child hedge) hrest⟩

end Node

namespace Graph

/-- The graphs that can be built under a comparer, by adding entries under paths and by adding the
nodes of paths, where each token of a path has a property. -/
inductive BuiltOf (P : Token → Prop) (cmp : Comparer) : Graph α → Prop where
  | empty : BuiltOf P cmp (.empty cmp)
  | insert {g : Graph α} {path : List Token} (a : α) (tokens : ∀ t ∈ path, P t) :
      BuiltOf P cmp g → BuiltOf P cmp (g.insert path a).1
  | touch {g : Graph α} {path : List Token} (tokens : ∀ t ∈ path, P t) :
      BuiltOf P cmp g → BuiltOf P cmp (g.touch path)

variable {P : Token → Prop} {g : Graph α}

/-- What the tokens have may be forgotten. -/
theorem BuiltOf.builtUnder (h : g.BuiltOf P cmp) : g.BuiltUnder cmp := by
  induction h with
  | empty => exact .empty
  | insert a _ _ ih => exact .insert _ a ih
  | touch _ _ ih => exact .touch _ ih

/-- The tokens of the edges are from the paths. -/
theorem BuiltOf.tokensHave (h : g.BuiltOf P cmp) : g.root.TokensHave P := by
  induction h with
  | empty => exact Node.tokensHave_empty
  | insert a hpath hbuilt ih =>
    rw [Graph.insert, hbuilt.builtUnder.comparer_eq]
    exact ih.update (fun m hm => hm.setEntry a) hpath hbuilt.builtUnder.wellKeyed
  | touch hpath hbuilt ih =>
    rw [Graph.touch, hbuilt.builtUnder.comparer_eq]
    exact ih.update (fun m hm => hm) hpath hbuilt.builtUnder.wellKeyed

/-- A path whose tokens have texts is handed out with the tokens as they are shown, joined by single
spaces. -/
theorem BuiltOf.extendPathBy_eq (h : g.BuiltOf (fun t => t.text ≠ "") cmp) {path : List Token}
    {a : α} (hpath : (path, a) ∈ g.root.preorder) :
    Node.extendPathBy "" path = renderPath path := by
  refine Node.foldl_extendPath ?_
  intro label hlabel
  obtain ⟨t, ht, rfl⟩ := List.mem_map.1 hlabel
  exact Token.display_ne_empty (h.tokensHave.of_mem_preorder hpath t ht)

/-- **What a walk hands out.** In every graph that was built from paths whose tokens have texts, a
walk comes to an end, and it hands out the entries in the order of the walk by recursion, each with
its path, as the tokens of its edges are shown, joined by single spaces. Every entry of the graph is
handed out for its path once: with a path that is the same, and no other has such a path. There are
as many entries as the graph counts. -/
theorem walk_yields_preorder (h : g.BuiltOf (fun t => t.text ≠ "") cmp) :
    g.walk.Yields (g.root.preorder.map fun entry => (renderPath entry.1, entry.2)) ∧
    (∀ (path : List Token) (a : α), (path, a) ∈ g.root.preorder → g.get? path = some a) ∧
    (∀ (path : List Token) (a : α), g.get? path = some a →
      ∃ (i : Nat) (shown : List Token),
        g.root.preorder[i]? = some (shown, a) ∧ samePath cmp shown path = true ∧
        ∀ (j : Nat) (other : List Token) (b : α), g.root.preorder[j]? = some (other, b) →
          samePath cmp other path = true → j = i) ∧
    (g.root.preorder.map fun entry => (renderPath entry.1, entry.2)).length = g.size := by
  have hkeyed := h.builtUnder.wellKeyed
  have hcomparer := h.builtUnder.comparer_eq
  refine ⟨?_, ?_, ?_, ?_⟩
  · have hyields := Walk.yields g.walk
    have hshown : (g.walk.stack.flatMap fun entry => entry.2.shown entry.1) =
        g.root.preorder.map fun entry => (renderPath entry.1, entry.2) := by
      have hroot : (g.walk.stack.flatMap fun entry => entry.2.shown entry.1) = g.root.shown "" :=
        List.flatMap_singleton ..
      rw [hroot, Node.shown]
      refine List.map_congr_left fun entry hentry => ?_
      rw [h.extendPathBy_eq (a := entry.2) hentry]
    rwa [hshown] at hyields
  · intro path a hmem
    rw [get?_eq_valueAt?, hcomparer]
    exact hkeyed.valueAt?_of_mem_preorder hmem
  · intro path a hget
    rw [get?_eq_valueAt?, hcomparer] at hget
    obtain ⟨shown, hmem, hsame⟩ := hkeyed.exists_mem_preorder hget
    obtain ⟨i, hi⟩ := List.mem_iff_getElem?.1 hmem
    refine ⟨i, shown, hi, hsame, ?_⟩
    intro j other b hj hother
    -- two places would have paths that are the same
    obtain ⟨hilt, higet⟩ := List.getElem?_eq_some_iff.1 hi
    obtain ⟨hjlt, hjget⟩ := List.getElem?_eq_some_iff.1 hj
    have hboth : samePath cmp other shown = true := by
      rw [samePath_iff_map_eq] at hsame hother ⊢
      rw [hother, hsame]
    have hpairwise := List.pairwise_iff_getElem.1 hkeyed.pairwise_preorder
    rcases Nat.lt_trichotomy j i with hlt | heq | hgt
    · have hdiffers := hpairwise j i hjlt hilt hlt
      rw [hjget, higet, hboth] at hdiffers
      cases hdiffers
    · exact heq
    · have hdiffers := hpairwise i j hilt hjlt hgt
      rw [hjget, higet, samePath_comm, hboth] at hdiffers
      cases hdiffers
  · rw [List.length_map, Node.length_preorder]
    rfl

/-- The entry of a node comes before what is behind the node, and words come before sets, whatever
was added first. -/
theorem walk_yields_preorder_greetings :
    let graph := ((((Graph.empty .ignoreCase).insert [.word "Hello"] 1).1.insert
      [.word "HELLO", .set "Color"] 2).1.insert [.word "hello", .word "There"] 3).1.touch
      [.word "hello", .word "THERE", .word "soon"]
    graph.BuiltOf (fun t => t.text ≠ "") .ignoreCase ∧
      graph.walk.Yields [("Hello", 1), ("Hello There", 3), ("Hello <set>Color</set>", 2)] := by
  intro graph
  have hbuilt : graph.BuiltOf (fun t => t.text ≠ "") .ignoreCase := by
    refine .touch ?_ (.insert _ ?_ (.insert _ ?_ (.insert _ ?_ .empty))) <;> decide
  have hlisted : graph.listing =
      [("Hello", 1), ("Hello There", 3), ("Hello <set>Color</set>", 2)] := by
    decide +kernel
  have hyields := (walk_yields_preorder hbuilt).1
  rw [← hyields.toList_eq, toList_walk, hlisted] at hyields
  exact ⟨hbuilt, hyields⟩

end Graph

end Parley
