import Parley.Proofs.Insertion
import Parley.Proofs.Search.Priority

/-!
# Searching a graph that has learned an entry

An insertion changes edges along one path. A choice leads where it led before, or to the same place
with a changed node, or along an edge that was not there. Followed to the end, the same choices give
the same way, or a way to the new entry where there was none. The least match is therefore the one
it was, or it ends at the new entry.

Main results:

* `Node.advance?_update` — how a change at the end of a path changes what a choice leads to;
* `Node.follow?_update` — what this does to a match;
* `Graph.firstMatch?_insert` — what this does to the least match;
* `search_insert` — an insertion leaves the result of a search, or the new entry is found.
-/

namespace Parley

open Text

variable {α : Type}

namespace Node

variable {cmp : Comparer}

/-! ## Edges after a change -/

/-- A change at the end of a path leaves a word edge, changes the node behind it, or adds it. -/
theorem child?_update (f : Node α → Node α) (t : Token) (path : List Token) (n : Node α)
    (text : String) :
    (update cmp f (t :: path) n).child? cmp text = n.child? cmp text ∨
      (∃ u m, n.child? cmp text = some (u, m) ∧ n.step? cmp t = some m ∧
        (update cmp f (t :: path) n).child? cmp text = some (u, update cmp f path m)) ∨
      (n.child? cmp text = none ∧
        ∃ u, (update cmp f (t :: path) n).child? cmp text = some (u, update cmp f path empty)) := by
  obtain ⟨value, ws, ss⟩ := n
  rw [update]
  split
  · exact Or.inl rfl
  · next ht =>
    simp only [child?, words, lookup_updateWord, step?, ht]
    by_cases hkey : cmp.key text = cmp.key t.text
    · -- the text has the edge of the path, which may have to be made
      rw [if_pos hkey, hkey]
      right
      cases hedge : ws.lookup (cmp.key t.text) with
      | none => exact Or.inr ⟨rfl, t, rfl⟩
      | some edge => exact Or.inl ⟨edge.1, edge.2, rfl, rfl, rfl⟩
    · rw [if_neg hkey]
      exact Or.inl rfl

/-- Where an edge for a set stands in the list does not change; a new one stands at its end. -/
theorem getElem?_updateSet (name : String) (f : Node α → Node α) (edges : List (String × Node α))
    (i : Nat) :
    (updateSet cmp name f edges)[i]? = edges[i]? ∨
      (∃ m n, edges[i]? = some (m, n) ∧
        (edges.find? fun edge => cmp.equals edge.1 name) = some (m, n) ∧
        (updateSet cmp name f edges)[i]? = some (m, f n)) ∨
      (edges[i]? = none ∧ (updateSet cmp name f edges)[i]? = some (name, f empty)) := by
  induction edges generalizing i with
  | nil =>
    -- behind all edges there were, the first place is that of the new edge
    cases i with
    | zero => exact Or.inr (Or.inr ⟨rfl, rfl⟩)
    | succ i => exact Or.inl rfl
  | cons edge rest ih =>
    obtain ⟨m, n⟩ := edge
    rw [updateSet]
    by_cases hm : cmp.equals m name = true
    · rw [if_pos hm]
      cases i with
      | zero =>
        exact Or.inr (Or.inl ⟨m, n, rfl, List.find?_cons_of_pos (by exact hm), rfl⟩)
      | succ i => exact Or.inl rfl
    · rw [if_neg hm]
      cases i with
      | zero => exact Or.inl rfl
      | succ i =>
        have hskip : ((m, n) :: rest).find? (fun edge => cmp.equals edge.1 name) =
            rest.find? fun edge => cmp.equals edge.1 name := List.find?_cons_of_neg (by exact hm)
        rw [hskip]
        exact ih i

/-- A change at the end of a path leaves a set edge, changes the node behind it, or adds it. -/
theorem getElem?_sets_update (f : Node α → Node α) (t : Token) (path : List Token) (n : Node α)
    (i : Nat) :
    (update cmp f (t :: path) n).sets[i]? = n.sets[i]? ∨
      (∃ name m, n.sets[i]? = some (name, m) ∧ n.step? cmp t = some m ∧
        (update cmp f (t :: path) n).sets[i]? = some (name, update cmp f path m)) ∨
      (n.sets[i]? = none ∧
        ∃ name, (update cmp f (t :: path) n).sets[i]? = some (name, update cmp f path empty)) := by
  obtain ⟨value, ws, ss⟩ := n
  rw [update]
  split
  · next ht =>
    rcases getElem?_updateSet t.text (update cmp f path) ss i with
      heq | ⟨name, m, hold, hfind, hnew⟩ | ⟨hold, hnew⟩
    · exact Or.inl heq
    · refine Or.inr (Or.inl ⟨name, m, hold, ?_, hnew⟩)
      rw [step?, if_pos ht, setChild?, sets, hfind]
      rfl
    · exact Or.inr (Or.inr ⟨hold, t.text, hnew⟩)
  · exact Or.inl rfl

/-- What is behind a word edge after a change, as the place that a choice leads to. -/
theorem map_child?_update (f : Node α → Node α) (t : Token) (path : List Token) (n : Node α)
    (text : String) (label : Token → String) (taken? : Option String) (cursor : Cursor) :
    let place (edge : Token × Node α) : Advance α :=
      { label := label edge.1, taken?, child := edge.2, cursor }
    ((update cmp f (t :: path) n).child? cmp text).map place = (n.child? cmp text).map place ∨
      (∃ a, (n.child? cmp text).map place = some a ∧ n.step? cmp t = some a.child ∧
        ((update cmp f (t :: path) n).child? cmp text).map place =
          some { a with child := update cmp f path a.child }) ∨
      ((n.child? cmp text).map place = none ∧
        ∃ a, ((update cmp f (t :: path) n).child? cmp text).map place = some a ∧
          a.child = update cmp f path empty) := by
  rcases child?_update f t path n text with
    heq | ⟨u, m, hold, hedge, hnew⟩ | ⟨hold, u, hnew⟩
  · exact Or.inl (by rw [heq])
  · exact Or.inr (Or.inl (by simp [hold, hedge, hnew]))
  · exact Or.inr (Or.inr (by simp [hold, hnew]))

/-- **A change at the end of a path leaves what a choice leads to, changes the node that it leads
to, or adds it.** -/
theorem advance?_update {q : Query} (f : Node α → Node α) (t : Token) (path : List Token)
    (n : Node α) (c : Cursor) (ch : Choice) :
    (update q.comparer f (t :: path) n).advance? q c ch = n.advance? q c ch ∨
      (∃ a, n.advance? q c ch = some a ∧ n.step? q.comparer t = some a.child ∧
        (update q.comparer f (t :: path) n).advance? q c ch =
          some { a with child := update q.comparer f path a.child }) ∨
      (n.advance? q c ch = none ∧
        ∃ a, (update q.comparer f (t :: path) n).advance? q c ch = some a ∧
          a.child = update q.comparer f path empty) := by
  obtain ⟨s, ahead⟩ := c
  -- a choice looks up one edge, and what it checks besides does not depend on the node behind it
  cases ch with
  | preferred =>
    cases ahead with
    | nil => exact Or.inl rfl
    | cons w rest => exact map_child?_update f t path n ("$" ++ w) Token.text none _
  | wildcard w k =>
    simp only [advance?]
    split
    · exact map_child?_update f t path n w.symbol (fun _ => w.symbol) _ _
    · exact Or.inl rfl
  | plain =>
    cases ahead with
    | nil =>
      simp only [advance?]
      cases s.separator? with
      | none => exact Or.inl rfl
      | some separator => exact map_child?_update f t path n separator (fun _ => separator) none _
    | cons w rest =>
      simp only [advance?]
      split
      · exact Or.inl rfl
      · exact map_child?_update f t path n w Token.text none _
  | phrase i k =>
    simp only [advance?]
    rcases getElem?_sets_update f t path n i with
      heq | ⟨name, m, hold, hedge, hnew⟩ | ⟨hold, name, hnew⟩
    · exact Or.inl (by rw [heq])
    · rw [hold, hnew, Option.bind_some, Option.bind_some]
      dsimp only
      cases q.sets.get? name with
      | none => exact Or.inl rfl
      | some set =>
        rw [Option.bind_some, Option.bind_some]
        split
        · exact Or.inr (Or.inl ⟨_, rfl, hedge, rfl⟩)
        · exact Or.inl rfl
    · rw [hold, hnew, Option.bind_none, Option.bind_some]
      dsimp only
      cases q.sets.get? name with
      | none => exact Or.inl rfl
      | some set =>
        rw [Option.bind_some]
        split
        · exact Or.inr (Or.inr ⟨rfl, _, rfl, rfl⟩)
        · exact Or.inl rfl

/-- An entry changes nothing about the edges of its node. -/
theorem advance?_setEntry (q : Query) (a : α) (n : Node α) (c : Cursor) (ch : Choice) :
    (setEntry a n).advance? q c ch = n.advance? q c ch := by
  obtain ⟨s, ahead⟩ := c
  cases ch <;> cases ahead <;> simp [advance?, child?]

/-- No choice leads anywhere from a node without edges. -/
theorem advance?_empty (q : Query) (c : Cursor) (ch : Choice) :
    (empty : Node α).advance? q c ch = none := by
  obtain ⟨s, ahead⟩ := c
  cases ch <;> cases ahead <;> simp [advance?, child?, empty, words, sets]

theorem follow?_empty (q : Query) (c : Cursor) (p : Progress) (chs : List Choice) :
    (empty : Node α).follow? q c p chs = none := by
  cases chs with
  | nil =>
    rw [follow?]
    split <;> rfl
  | cons ch chs => rw [follow?, advance?_empty, Option.bind_none]

/-! ## Matches after an insertion -/

/-- **An insertion of a new entry leaves the way of a match, or the way leads to the new entry.** -/
theorem follow?_update {q : Query} (a : α) (path : List Token) {n : Node α}
    (hnew : n.valueAt? q.comparer path = none) (c : Cursor) (p : Progress) (chs : List Choice) :
    (update q.comparer (setEntry a) path n).follow? q c p chs = n.follow? q c p chs ∨
      (n.follow? q c p chs = none ∧
        ∃ way, (update q.comparer (setEntry a) path n).follow? q c p chs = some way ∧
          way.entry = a) := by
  -- induction on the path of the insertion; the match goes along it as far as it likes
  induction path generalizing n c p chs with
  | nil =>
    rw [valueAt?_nil] at hnew
    rw [update]
    cases chs with
    | nil =>
      -- the match ends where the new entry is
      rw [follow?, follow?, value?_setEntry, hnew]
      split
      · exact Or.inr ⟨rfl, _, rfl, rfl⟩
      · exact Or.inl rfl
    | cons ch chs =>
      -- the match goes on behind the new entry
      rw [follow?, follow?, advance?_setEntry]
      exact Or.inl rfl
  | cons t path ih =>
    cases chs with
    | nil =>
      -- the match ends before the new entry
      rw [follow?, follow?, value?_update_cons]
      exact Or.inl rfl
    | cons ch chs =>
      rw [follow?, follow?]
      rcases advance?_update (setEntry a) t path n c ch with
        heq | ⟨b, hold, hedge, hafter⟩ | ⟨hold, b, hafter, hchild⟩
      · exact Or.inl (by rw [heq])
      · -- the match goes along the path of the insertion
        rw [hold, hafter, Option.bind_some, Option.bind_some]
        rw [valueAt?_cons, hedge, Option.bind_some] at hnew
        exact ih hnew b.cursor (b.progress c.segment p) chs
      · rw [hold, hafter, Option.bind_none, Option.bind_some, hchild]
        -- behind a new edge there was nothing
        rcases ih (valueAt?_empty path) b.cursor (b.progress c.segment p) chs with heq | ⟨-, hway⟩
        · rw [heq, follow?_empty]
          exact Or.inl rfl
        · exact Or.inr ⟨rfl, hway⟩

/-- What is found from a node after an insertion of a new entry is what was found before, or it is
the new entry, by choices that led to no entry before. -/
theorem found?_search_update {q : Query} (a : α) (path : List Token) {n : Node α}
    (hnew : n.valueAt? q.comparer path = none) (c : Cursor) (p : Progress) :
    ((update q.comparer (setEntry a) path n).search q c p).found? = (n.search q c p).found? ∨
      ∃ chs way, n.follow? q c p chs = none ∧
        (update q.comparer (setEntry a) path n).Least q c p chs way ∧ way.entry = a := by
  -- old matches stay matches, so the new graph has no fewer of them
  have hstays : ∀ chs, (n.follow? q c p chs).isSome →
      (update q.comparer (setEntry a) path n).follow? q c p chs = n.follow? q c p chs := by
    intro chs hsome
    rcases follow?_update a path hnew c p chs with heq | ⟨hnone, -⟩
    · exact heq
    · simp [hnone] at hsome
  cases hfound : ((update q.comparer (setEntry a) path n).search q c p).found? with
  | none =>
    -- there is no match now, and so there was none
    left
    rw [eq_comm, found?_search_eq_none_iff]
    intro chs
    have hnone := found?_search_eq_none_iff.1 hfound chs
    cases hold : n.follow? q c p chs with
    | none => rfl
    | some way =>
      rw [hstays chs (by simp [hold]), hold] at hnone
      exact hnone
  | some way =>
    obtain ⟨chs, hchs⟩ := found?_search_eq_some_iff.1 hfound
    rcases follow?_update a path hnew c p chs with heq | ⟨hnone, way', hway', hentry⟩
    · -- the least match of all is an old one, and so it was the least of the old ones
      left
      rw [eq_comm, found?_search_eq_some_iff]
      refine ⟨chs, heq ▸ hchs.follows, ?_⟩
      intro others hothers
      refine hchs.least others ?_
      rw [hstays others hothers]
      exact hothers
    · -- the least match of all is a new one, and new ones end at the new entry
      right
      rw [hchs.follows] at hway'
      exact ⟨chs, way, hnone, hchs, Option.some.inj hway' ▸ hentry⟩

end Node

/-! ## Searches after an insertion -/

/-- The least match of a graph after an insertion of a new entry. -/
theorem Graph.firstMatch?_insert (options : SearchOptions) (input : Input) {g : Graph α}
    {path : List Token} {a : α} (hnew : (g.insert path a).2 = none) :
    (g.insert path a).1.firstMatch? options input = g.firstMatch? options input ∨
      ∃ chs way, g.match? options input chs = none ∧
        (g.insert path a).1.match? options input chs = some way ∧ way.entry = a ∧
        (g.insert path a).1.firstMatch? options input = some way := by
  rcases Node.found?_search_update (q := options.query g.comparer input) a path hnew
    (.startOf input .message) {} with heq | ⟨chs, way, hnone, hleast, hentry⟩
  · exact Or.inl heq
  · exact Or.inr ⟨chs, way, hnone, hleast.follows, hentry,
      Node.found?_search_eq_some_iff.2 ⟨chs, hleast⟩⟩

/-- Going through graphs one of which has learned a new entry. -/
theorem result_searchFrom_insert {options : SearchOptions} {input : Input} (root : Nat)
    {before after : List (Graph α)} {g : Graph α} {path : List Token} {a : α}
    (hnew : (g.insert path a).2 = none) :
    (searchFrom options input root (before ++ (g.insert path a).1 :: after)).result =
        (searchFrom options input root (before ++ g :: after)).result ∨
      ∃ chs way, g.match? options input chs = none ∧
        (g.insert path a).1.match? options input chs = some way ∧ way.entry = a ∧
        (searchFrom options input root (before ++ (g.insert path a).1 :: after)).result =
          .ok (some (way.found (root + before.length))) := by
  by_cases htime : options.expired = true
  · -- no graph is searched any more
    left
    cases before <;> simp [searchFrom, htime]
  · have htime' := Bool.eq_false_iff.2 htime
    -- induction on the graphs before the one that has learned
    induction before generalizing root with
    | nil =>
      rw [List.nil_append, List.nil_append, result_searchFrom_cons _ _ _ _ htime',
        result_searchFrom_cons _ _ _ _ htime']
      rcases Graph.firstMatch?_insert options input hnew with
        heq | ⟨chs, way, hnone, hmatch, hentry, hfirst⟩
      · exact Or.inl (by rw [heq])
      · rw [hfirst]
        exact Or.inr ⟨chs, way, hnone, hmatch, hentry, rfl⟩
    | cons b before ih =>
      rw [List.cons_append, List.cons_append, result_searchFrom_cons _ _ _ _ htime',
        result_searchFrom_cons _ _ _ _ htime']
      cases b.firstMatch? options input with
      | some way => exact Or.inl rfl
      | none =>
        rw [List.length_cons, Nat.add_comm before.length, ← Nat.add_assoc]
        exact ih (root + 1)

/-- **A new entry can only add its own answer.** A search that goes through a graph with a new entry
ends as it ended without the entry, or it finds the entry there, by choices that led to no entry
before. -/
theorem search_insert {options : SearchOptions} {input : Input} {before after : List (Graph α)}
    {g : Graph α} {path : List Token} {a : α} (hnew : (g.insert path a).2 = none) :
    (search options (before ++ (g.insert path a).1 :: after) input).result =
        (search options (before ++ g :: after) input).result ∨
      ∃ found, (search options (before ++ (g.insert path a).1 :: after) input).result =
          .ok (some found) ∧ found.entry = a ∧ found.root = before.length ∧
        ∃ chs way, g.match? options input chs = none ∧
          (g.insert path a).1.match? options input chs = some way ∧
          found = way.found before.length := by
  by_cases hdepth : options.depth ≤ options.recursionLimit
  · rw [result_search _ _ hdepth, result_search _ _ hdepth]
    rcases result_searchFrom_insert 0 hnew with heq | ⟨chs, way, hnone, hmatch, hentry, hresult⟩
    · exact Or.inl heq
    · rw [Nat.zero_add] at hresult
      exact Or.inr ⟨_, hresult, hentry, rfl, chs, way, hnone, hmatch, rfl⟩
  · left
    rw [search, search, if_pos (by omega), if_pos (by omega)]

/-- A more particular entry is learned beside a general one. -/
theorem search_insert_hello :
    let rest : List Token :=
      [.word "<that>", .wildcard .oneOrMore, .word "<topic>", .wildcard .oneOrMore]
    let path : List Token := .word "hello" :: rest
    let general := ((Graph.empty .exact).insert (.wildcard .oneOrMore :: rest) "Go on.").1
    let input := Input.ofTexts "hello" "so" "any"
    (search (.unhindered .exact) [(general.insert path "Hi!").1] input).result =
        (search (.unhindered .exact) [general] input).result ∨
      ∃ found,
        (search (.unhindered .exact) [(general.insert path "Hi!").1] input).result =
          .ok (some found) ∧ found.entry = "Hi!" := by
  intro rest path general input
  have hnew : (general.insert path "Hi!").2 = none := by decide +kernel
  rcases @search_insert String (.unhindered .exact) input [] [] general path "Hi!" hnew with
    heq | ⟨found, hresult, hentry, -⟩
  · exact Or.inl heq
  · exact Or.inr ⟨found, hresult, hentry⟩

end Parley
