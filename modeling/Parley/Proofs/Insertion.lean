import Parley.Graph

/-!
# Adding entries to a graph

Word edges are found by folded keys and set edges by comparing names, but both find the same thing:
the edge for a token is the edge for every token that matches it. An insertion therefore changes the
entry of one path up to matching tokens, and of no other.

A graph that was built by its operations keeps every edge where the comparer looks for it. This is
what a search relies on, because it meets the edges for sets as a list and not by their names.

Main results:

* `Node.step?_update` — a change at the end of a path is seen behind the first edge of the path;
* `Node.valueAt?_update_setEntry` — an insertion sets the entry of its path unless there is one;
* `Graph.BuiltUnder.wellKeyed` — every graph that was built has its edges under the right keys.
-/

namespace Parley

/-! ## Paths that are the same -/

/-- Whether two paths are the same under a comparer, token by token. -/
def samePath (cmp : Comparer) : List Token → List Token → Bool
  | [], [] => true
  | t :: p, u :: q => t.matchesUnder cmp u && samePath cmp p q
  | _, _ => false

namespace Token

variable {cmp : Comparer}

/-- Tokens match if both or neither are sets and their texts are equal for the comparer. -/
theorem matchesUnder_iff {t u : Token} :
    t.matchesUnder cmp u = true ↔ t.isSet = u.isSet ∧ cmp.key t.text = cmp.key u.text := by
  rw [matchesUnder, Bool.and_eq_true, beq_iff_eq, Comparer.equals_iff_key_eq]

end Token

@[simp] theorem samePath_self (cmp : Comparer) (p : List Token) : samePath cmp p p = true := by
  induction p with
  | nil => rfl
  | cons t p ih => simp [samePath, ih]

/-- Two paths are the same if their tokens are of the same kinds, with the same keys. -/
theorem samePath_iff_map_eq {cmp : Comparer} {p q : List Token} :
    samePath cmp p q = true ↔
      (p.map fun t => (t.isSet, cmp.key t.text)) = q.map fun t => (t.isSet, cmp.key t.text) := by
  induction p generalizing q with
  | nil => cases q <;> simp [samePath]
  | cons t p ih =>
    cases q with
    | nil => simp [samePath]
    | cons u q =>
      rw [samePath, Bool.and_eq_true, Token.matchesUnder_iff, ih, List.map_cons, List.map_cons,
        List.cons.injEq, Prod.mk.injEq]

/-- Which of two paths was added first does not matter. -/
theorem samePath_comm (cmp : Comparer) (p q : List Token) :
    samePath cmp p q = samePath cmp q p := by
  rw [Bool.eq_iff_iff, samePath_iff_map_eq, samePath_iff_map_eq, eq_comm]

namespace Node

variable {α : Type} {cmp : Comparer}

/-! ## Edges of matching tokens -/

/-- The entry of a path below a node. -/
def valueAt? (cmp : Comparer) (n : Node α) (path : List Token) : Option α :=
  (n.find? cmp path).bind value?

@[simp] theorem valueAt?_nil (n : Node α) : n.valueAt? cmp [] = n.value? := rfl

/-- The entry of a path is behind the edge of its first token. -/
theorem valueAt?_cons (n : Node α) (t : Token) (path : List Token) :
    n.valueAt? cmp (t :: path) = (n.step? cmp t).bind fun child => child.valueAt? cmp path := by
  rw [valueAt?, find?]
  cases n.step? cmp t <;> rfl

/-- Going along a path is going along its parts. -/
theorem find?_append (n : Node α) (p q : List Token) :
    n.find? cmp (p ++ q) = (n.find? cmp p).bind fun m => m.find? cmp q := by
  induction p generalizing n with
  | nil => rfl
  | cons t p ih =>
    rw [List.cons_append, find?, find?]
    cases n.step? cmp t with
    | none => rfl
    | some child => exact ih child

/-- The edge for a token that is no set is found among the word edges. -/
theorem step?_of_plain {t : Token} (plain : t.isSet = false) (n : Node α) :
    n.step? cmp t = (n.child? cmp t.text).map Prod.snd := by
  rw [step?, plain, if_neg Bool.false_ne_true]

/-- Texts that are the same have the same word edge. -/
theorem child?_congr {text other : String} (h : cmp.equals text other = true) (n : Node α) :
    n.child? cmp text = n.child? cmp other := by
  rw [child?, child?, (cmp.equals_iff_key_eq ..).1 h]

/-- Tokens that match have the same edge. -/
theorem step?_congr {t u : Token} (h : t.matchesUnder cmp u = true) (n : Node α) :
    n.step? cmp t = n.step? cmp u := by
  obtain ⟨hset, hkey⟩ := Token.matchesUnder_iff.1 h
  have hequals : (fun edge : String × Node α => cmp.equals edge.1 t.text) =
      fun edge => cmp.equals edge.1 u.text := by
    funext edge
    rw [Comparer.equals, Comparer.equals, hkey]
  rw [step?, step?, hset, setChild?, setChild?, hequals, child?, child?, hkey]

/-- Paths that are the same lead to the same entry. -/
theorem valueAt?_congr {p q : List Token} (h : samePath cmp p q = true) (n : Node α) :
    n.valueAt? cmp p = n.valueAt? cmp q := by
  induction p generalizing n q with
  | nil =>
    cases q with
    | nil => rfl
    | cons u q => simp [samePath] at h
  | cons t p ih =>
    cases q with
    | nil => simp [samePath] at h
    | cons u q =>
      rw [samePath, Bool.and_eq_true] at h
      rw [valueAt?_cons, valueAt?_cons, step?_congr h.1]
      congr 1
      funext child
      exact ih h.2 child

/-! ## Changes at the end of a path -/

/-- A change at the end of a path is seen behind the first edge of the path, and nowhere else. -/
theorem step?_update (f : Node α → Node α) (t : Token) (path : List Token) (n : Node α)
    (u : Token) :
    (update cmp f (t :: path) n).step? cmp u =
      if t.matchesUnder cmp u then some (update cmp f path ((n.step? cmp t).getD empty))
      else n.step? cmp u := by
  obtain ⟨v, ws, ss⟩ := n
  -- by the kinds of the two tokens: an edge of one kind is not seen among those of the other
  by_cases ht : t.isSet = true
  · rw [update, if_pos ht]
    by_cases hu : u.isSet = true
    · -- two names of sets match if the comparer says so, and so they are found
      have hmatches : t.matchesUnder cmp u = cmp.equals t.text u.text := by
        simp [Token.matchesUnder, ht, hu]
      simp only [step?, hu, ht, if_true, setChild?, sets, find?_updateSet, hmatches]
      split
      · cases ss.find? fun edge => cmp.equals edge.1 t.text <;> rfl
      · rfl
    · have hmatches : t.matchesUnder cmp u = false := by
        simp [Token.matchesUnder, ht, hu]
      rw [hmatches, if_neg Bool.false_ne_true, step?, step?, if_neg hu, if_neg hu]
      rfl
  · rw [update, if_neg ht]
    by_cases hu : u.isSet = true
    · have hmatches : t.matchesUnder cmp u = false := by
        simp [Token.matchesUnder, ht, hu]
      rw [hmatches, if_neg Bool.false_ne_true, step?, step?, if_pos hu, if_pos hu]
      rfl
    · -- two words match if their keys are the same, and the edges are under the keys
      have hmatches : t.matchesUnder cmp u = true ↔ cmp.key u.text = cmp.key t.text := by
        rw [Token.matchesUnder_iff, eq_comm (a := cmp.key t.text)]
        simp [ht, hu]
      simp only [step?, hu, ht, child?, words, lookup_updateWord, Bool.false_eq_true, if_false]
      by_cases hkey : cmp.key u.text = cmp.key t.text
      · rw [if_pos hkey, if_pos (hmatches.2 hkey)]
        cases ws.lookup (cmp.key t.text) <;> rfl
      · rw [if_neg hkey, if_neg (mt hmatches.1 hkey)]

@[simp] theorem value?_update_cons (f : Node α → Node α) (t : Token) (path : List Token)
    (n : Node α) : (update cmp f (t :: path) n).value? = n.value? := by
  obtain ⟨v, ws, ss⟩ := n
  rw [update]
  split <;> rfl

/-- An entry that is there stays. -/
@[simp] theorem value?_setEntry (a : α) (n : Node α) :
    (setEntry a n).value? = some (n.value?.getD a) := by
  obtain ⟨v | v, ws, ss⟩ := n <;> rfl

@[simp] theorem words_setEntry (a : α) (n : Node α) : (setEntry a n).words = n.words := by
  obtain ⟨v | v, ws, ss⟩ := n <;> rfl

@[simp] theorem sets_setEntry (a : α) (n : Node α) : (setEntry a n).sets = n.sets := by
  obtain ⟨v | v, ws, ss⟩ := n <;> rfl

@[simp] theorem valueAt?_empty (path : List Token) : (empty : Node α).valueAt? cmp path = none := by
  cases path with
  | nil => rfl
  | cons t path =>
    rw [valueAt?_cons, step?]
    split <;> rfl

/-- An insertion sets the entry of its path, under every spelling of the path, unless there is one;
all other entries stay. -/
theorem valueAt?_update_setEntry (a : α) (p q : List Token) (n : Node α) :
    (update cmp (setEntry a) p n).valueAt? cmp q =
      if samePath cmp p q then some ((n.valueAt? cmp p).getD a) else n.valueAt? cmp q := by
  -- induction on the path of the insertion, side by side with the path that is looked up
  induction p generalizing n q with
  | nil =>
    cases q with
    | nil => simp [update, samePath]
    | cons u q =>
      -- the entry of a node says nothing about its edges
      have hstep : (setEntry a n).step? cmp u = n.step? cmp u := by
        simp [step?, setChild?, child?]
      have hdiffers : samePath cmp [] (u :: q) = false := rfl
      rw [update, valueAt?_cons, valueAt?_cons, hstep, hdiffers, if_neg Bool.false_ne_true]
  | cons t p ih =>
    cases q with
    | nil => simp [samePath]
    | cons u q =>
      rw [valueAt?_cons, step?_update, samePath]
      by_cases h : t.matchesUnder cmp u = true
      · -- the same edge; a node that was not there has no entries
        rw [if_pos h, Option.bind_some, ih, h, Bool.true_and, valueAt?_cons, valueAt?_cons,
          ← step?_congr h]
        cases n.step? cmp t <;> simp
      · -- another edge, behind which nothing changes
        rw [if_neg h, Bool.eq_false_iff.2 h, Bool.false_and, if_neg Bool.false_ne_true,
          valueAt?_cons n u q]

/-! ## Edges under the right keys -/

/-- At and below a node, the word edges are under the keys of their tokens, no two of them under one
key, and no two set edges have names that are the same. -/
inductive WellKeyed (cmp : Comparer) : Node α → Prop where
  | mk {value? : Option α} {ws : List (String × Token × Node α)} {ss : List (String × Node α)}
      (tokens : ∀ e ∈ ws, e.2.1.isSet = false ∧ cmp.key e.2.1.text = e.1)
      (keys : ws.Pairwise fun a b => a.1 ≠ b.1)
      (names : ss.Pairwise fun a b => cmp.equals a.1 b.1 = false)
      (belowWords : ∀ e ∈ ws, WellKeyed cmp e.2.2)
      (belowSets : ∀ e ∈ ss, WellKeyed cmp e.2) : WellKeyed cmp (.mk value? ws ss)

/-- Whether a node has an edge for a token, as it was stored, that leads to a child. -/
inductive HasEdge (n : Node α) : Token → Node α → Prop where
  | word {key : String} {t : Token} {child : Node α} (stored : (key, t, child) ∈ n.words) :
      n.HasEdge t child
  | set {name : String} {child : Node α} (stored : (name, child) ∈ n.sets) :
      n.HasEdge (.set name) child

/-- Behind every edge of a well-keyed node is one. -/
theorem WellKeyed.of_hasEdge {n child : Node α} {t : Token} (hn : n.WellKeyed cmp)
    (h : n.HasEdge t child) : child.WellKeyed cmp := by
  obtain ⟨-, -, -, belowWords, belowSets⟩ := hn
  cases h with
  | word stored => exact belowWords _ stored
  | set stored => exact belowSets _ stored

/-- What is found by a key is an edge. -/
theorem HasEdge.of_child? {n child : Node α} {text : String} {t : Token}
    (h : n.child? cmp text = some (t, child)) : n.HasEdge t child :=
  .word (Entries.mem_of_lookup_eq_some h)

/-- A node without edges has no two under one key. -/
theorem wellKeyed_empty : (empty : Node α).WellKeyed cmp :=
  .mk (by simp) .nil .nil (by simp) (by simp)

/-- The token of the edge found by a key has that key, and leads back to the edge. -/
theorem WellKeyed.of_child? {n child : Node α} {text : String} {t : Token}
    (hn : n.WellKeyed cmp) (h : n.child? cmp text = some (t, child)) :
    t.isSet = false ∧ cmp.key t.text = cmp.key text ∧ n.step? cmp t = some child ∧
      child.WellKeyed cmp := by
  obtain ⟨tokens, -, -, belowWords, -⟩ := hn
  -- the edge is under the key of the text, which is then the key of its token
  have hmem := Entries.mem_of_lookup_eq_some h
  obtain ⟨hset, hkey⟩ := tokens _ hmem
  refine ⟨hset, hkey, ?_, belowWords _ hmem⟩
  rw [step?_of_plain hset, child?, hkey]
  exact congrArg (Option.map Prod.snd) h

/-- Set edges are found by their names. -/
theorem find?_of_mem_sets {ss : List (String × Node α)}
    (names : ss.Pairwise fun a b => cmp.equals a.1 b.1 = false) {name : String} {child : Node α}
    (h : (name, child) ∈ ss) :
    (ss.find? fun edge => cmp.equals edge.1 name) = some (name, child) := by
  induction ss with
  | nil => simp at h
  | cons edge rest ih =>
    obtain ⟨hfirst, hrest⟩ := List.pairwise_cons.1 names
    rcases List.mem_cons.1 h with rfl | hmem
    · simp
    · -- no edge before this one has the name
      rw [List.find?_cons_of_neg, ih hrest hmem]
      simpa using hfirst _ hmem

/-- Each set of the list is the first of its name. -/
theorem WellKeyed.of_sets {n child : Node α} {name : String} (hn : n.WellKeyed cmp)
    (h : (name, child) ∈ n.sets) :
    n.step? cmp (.set name) = some child ∧ child.WellKeyed cmp := by
  obtain ⟨-, -, names, -, belowSets⟩ := hn
  refine ⟨?_, belowSets _ h⟩
  rw [step?, Token.isSet, if_pos rfl, setChild?, Token.text, sets, find?_of_mem_sets names h]
  rfl

/-! Changes keep the edges under the right keys. -/

/-- An edge after a change is an old one, an old one with its node changed, or a new one. -/
theorem mem_updateWord {key : String} {t : Token} {f : Node α → Node α}
    {edges : List (String × Token × Node α)} {e : String × Token × Node α}
    (h : e ∈ updateWord key t f edges) :
    e ∈ edges ∨ (∃ u n, (key, u, n) ∈ edges ∧ e = (key, u, f n)) ∨ e = (key, t, f empty) := by
  induction edges with
  | nil =>
    rw [updateWord, List.mem_singleton] at h
    exact Or.inr (Or.inr h)
  -- the edge with the key is changed, the others stay; without one, a new edge is put behind them
  | cons edge rest ih =>
    obtain ⟨k, u, n⟩ := edge
    rw [updateWord] at h
    split at h
    · next hk =>
      subst hk
      rcases List.mem_cons.1 h with rfl | h
      · exact Or.inr (Or.inl ⟨u, n, List.mem_cons_self .., rfl⟩)
      · exact Or.inl (List.mem_cons_of_mem _ h)
    · rcases List.mem_cons.1 h with rfl | h
      · exact Or.inl (List.mem_cons_self ..)
      · rcases ih h with h | ⟨v, m, hmem, rfl⟩ | rfl
        · exact Or.inl (List.mem_cons_of_mem _ h)
        · exact Or.inr (Or.inl ⟨v, m, List.mem_cons_of_mem _ hmem, rfl⟩)
        · exact Or.inr (Or.inr rfl)

/-- A set edge behind a change was there, or is changed, or is new. -/
theorem mem_updateSet {name : String} {f : Node α → Node α} {edges : List (String × Node α)}
    {e : String × Node α} (h : e ∈ updateSet cmp name f edges) :
    e ∈ edges ∨ (∃ m n, (m, n) ∈ edges ∧ e = (m, f n)) ∨ e = (name, f empty) := by
  induction edges with
  | nil =>
    rw [updateSet, List.mem_singleton] at h
    exact Or.inr (Or.inr h)
  | cons edge rest ih =>
    obtain ⟨m, n⟩ := edge
    rw [updateSet] at h
    split at h
    · rcases List.mem_cons.1 h with rfl | h
      · exact Or.inr (Or.inl ⟨m, n, List.mem_cons_self .., rfl⟩)
      · exact Or.inl (List.mem_cons_of_mem _ h)
    · rcases List.mem_cons.1 h with rfl | h
      · exact Or.inl (List.mem_cons_self ..)
      · rcases ih h with h | ⟨v, k, hmem, rfl⟩ | rfl
        · exact Or.inl (List.mem_cons_of_mem _ h)
        · exact Or.inr (Or.inl ⟨v, k, List.mem_cons_of_mem _ hmem, rfl⟩)
        · exact Or.inr (Or.inr rfl)

/-- A change adds no second edge under a key. -/
theorem pairwise_updateWord (key : String) (t : Token) (f : Node α → Node α)
    {edges : List (String × Token × Node α)} (h : edges.Pairwise fun a b => a.1 ≠ b.1) :
    (updateWord key t f edges).Pairwise fun a b => a.1 ≠ b.1 := by
  induction edges with
  | nil => exact List.pairwise_singleton ..
  | cons edge rest ih =>
    obtain ⟨k, u, n⟩ := edge
    obtain ⟨hfirst, hrest⟩ := List.pairwise_cons.1 h
    rw [updateWord]
    split
    · exact List.pairwise_cons.2 ⟨hfirst, hrest⟩
    · next hk =>
      refine List.pairwise_cons.2 ⟨?_, ih hrest⟩
      intro e he
      -- a changed edge keeps its key, and a new one has the key that was not there
      rcases mem_updateWord he with he | ⟨v, m, hmem, rfl⟩ | rfl
      · exact hfirst e he
      · exact hfirst (key, v, m) hmem
      · exact hk

/-- A change adds no second edge for a set. -/
theorem pairwise_updateSet (name : String) (f : Node α → Node α) {edges : List (String × Node α)}
    (h : edges.Pairwise fun a b => cmp.equals a.1 b.1 = false) :
    (updateSet cmp name f edges).Pairwise fun a b => cmp.equals a.1 b.1 = false := by
  induction edges with
  | nil => exact List.pairwise_singleton ..
  | cons edge rest ih =>
    obtain ⟨m, n⟩ := edge
    obtain ⟨hfirst, hrest⟩ := List.pairwise_cons.1 h
    rw [updateSet]
    split
    · exact List.pairwise_cons.2 ⟨hfirst, hrest⟩
    · next hm =>
      refine List.pairwise_cons.2 ⟨?_, ih hrest⟩
      intro e he
      rcases mem_updateSet he with he | ⟨v, k, hmem, rfl⟩ | rfl
      · exact hfirst e he
      · exact hfirst (v, k) hmem
      · exact Bool.eq_false_iff.2 hm

/-- A change at the end of a path keeps all edges under the right keys if it keeps those below. -/
theorem WellKeyed.update {f : Node α → Node α}
    (hf : ∀ m : Node α, m.WellKeyed cmp → (f m).WellKeyed cmp) (path : List Token) {n : Node α}
    (hn : n.WellKeyed cmp) : (Node.update cmp f path n).WellKeyed cmp := by
  -- the nodes along the path are changed, and nodes that were not there start from the empty one
  induction path generalizing n with
  | nil => exact hf n hn
  | cons t path ih =>
    obtain ⟨tokens, keys, names, belowWords, belowSets⟩ := hn
    rw [Node.update]
    split
    · refine .mk tokens keys (pairwise_updateSet _ _ names) belowWords ?_
      intro e he
      rcases mem_updateSet he with he | ⟨m, k, hmem, rfl⟩ | rfl
      · exact belowSets e he
      · exact ih (belowSets _ hmem)
      · exact ih wellKeyed_empty
    · next ht =>
      refine .mk ?_ (pairwise_updateWord _ _ _ keys) names ?_ belowSets
      · intro e he
        rcases mem_updateWord he with he | ⟨u, m, hmem, rfl⟩ | rfl
        · exact tokens e he
        · exact tokens (_, u, m) hmem
        · exact ⟨Bool.eq_false_iff.2 ht, rfl⟩
      · intro e he
        rcases mem_updateWord he with he | ⟨u, m, hmem, rfl⟩ | rfl
        · exact belowWords e he
        · exact ih (belowWords _ hmem)
        · exact ih wellKeyed_empty

/-- An entry changes no edges. -/
theorem WellKeyed.setEntry (a : α) {n : Node α} (hn : n.WellKeyed cmp) :
    (Node.setEntry a n).WellKeyed cmp := by
  obtain ⟨v | v, ws, ss⟩ := n
  all_goals
    obtain ⟨tokens, keys, names, belowWords, belowSets⟩ := hn
    exact .mk tokens keys names belowWords belowSets

end Node

/-! ## Graphs that were built -/

namespace Graph

variable {α : Type} {cmp : Comparer}

/-- The graphs that can be built under a comparer: from the empty one, by adding entries under paths
and by adding the nodes of paths. -/
inductive BuiltUnder (cmp : Comparer) : Graph α → Prop where
  | empty : BuiltUnder cmp (.empty cmp)
  | insert {g : Graph α} (path : List Token) (a : α) :
      BuiltUnder cmp g → BuiltUnder cmp (g.insert path a).1
  | touch {g : Graph α} (path : List Token) : BuiltUnder cmp g → BuiltUnder cmp (g.touch path)

/-- Additions leave the comparer as it is. -/
theorem BuiltUnder.comparer_eq {g : Graph α} (h : g.BuiltUnder cmp) : g.comparer = cmp := by
  induction h with
  | empty => rfl
  | insert _ _ _ ih => exact ih
  | touch _ _ ih => exact ih

/-- Every graph that was built has its edges under the right keys. -/
theorem BuiltUnder.wellKeyed {g : Graph α} (h : g.BuiltUnder cmp) : g.root.WellKeyed cmp := by
  induction h with
  | empty => exact Node.wellKeyed_empty
  | insert path a hg ih =>
    rw [Graph.insert, hg.comparer_eq]
    exact ih.update (fun _ hm => hm.setEntry a) path
  | touch path hg ih =>
    rw [Graph.touch, hg.comparer_eq]
    exact ih.update (fun _ hm => hm) path

/-- To look a path up is to follow it from the root. -/
theorem get?_eq_valueAt? (g : Graph α) (path : List Token) :
    g.get? path = g.root.valueAt? g.comparer path := rfl

/-- An insertion sets the entry of its path unless there is one; all other entries stay. -/
theorem get?_insert_eq (g : Graph α) (p q : List Token) (a : α) :
    (g.insert p a).1.get? q =
      if samePath g.comparer p q then some ((g.get? p).getD a) else g.get? q :=
  Node.valueAt?_update_setEntry a p q g.root

end Graph

end Parley
