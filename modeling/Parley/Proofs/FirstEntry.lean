import Mathlib.Data.List.Forall2
import Mathlib.Data.List.Induction
import Parley.Proofs.Insertion

/-!
# The first entry of a path stays

Entries are added to an empty graph one after the other. The graph then holds, for every path, the
first entry that was added under a path that is the same token by token, and it holds no other
entries. The second and every later entry of a path is refused: the first one is handed back, and
not a node, an edge, an entry or the order of the edges is different afterwards.

Main results:

* `Node.update_setEntry_eq_self` — where there is an entry, an insertion changes nothing at all;
* `Graph.get?_insertAll` — a path has the first of its entries;
* `Graph.insertAll_keeps_first` — the same for every look-up and every single insertion.
-/

namespace Parley

/-- Two paths are the same if they are of one length and match token by token. -/
theorem samePath_iff_forall₂ {cmp : Comparer} {p q : List Token} :
    samePath cmp p q = true ↔ List.Forall₂ (fun t u => t.matchesUnder cmp u = true) p q := by
  induction p generalizing q with
  | nil =>
    cases q with
    | nil => simp [samePath]
    | cons u q => simp [samePath]
  | cons t p ih =>
    cases q with
    | nil => simp [samePath]
    | cons u q => rw [samePath, Bool.and_eq_true, List.forall₂_cons, ih]

variable {α : Type} {cmp : Comparer}

namespace Node

/-! ## Insertions that change nothing -/

theorem updateWord_eq_self {key : String} {u : Token} {n : Node α} (t : Token)
    {f : Node α → Node α} {edges : List (String × Token × Node α)}
    (hedge : edges.lookup key = some (u, n)) (hf : f n = n) : updateWord key t f edges = edges := by
  induction edges with
  | nil => simp at hedge
  | cons edge rest ih =>
    obtain ⟨k, v, m⟩ := edge
    rw [Entries.lookup_cons_eq] at hedge
    rw [updateWord]
    by_cases hk : k = key
    · -- this is the edge, and its node stays as it was
      rw [if_pos hk.symm, Option.some.injEq, Prod.mk.injEq] at hedge
      obtain ⟨rfl, rfl⟩ := hedge
      rw [if_pos hk, hf]
    · rw [if_neg (Ne.symm hk)] at hedge
      rw [if_neg hk, ih hedge]

theorem updateSet_eq_self {name m : String} {n : Node α} {f : Node α → Node α}
    {edges : List (String × Node α)}
    (hedge : (edges.find? fun edge => cmp.equals edge.1 name) = some (m, n)) (hf : f n = n) :
    updateSet cmp name f edges = edges := by
  induction edges with
  | nil => simp at hedge
  | cons edge rest ih =>
    obtain ⟨k, d⟩ := edge
    rw [List.find?_cons] at hedge
    rw [updateSet]
    cases hk : cmp.equals k name with
    | true =>
      rw [hk, Option.some.injEq, Prod.mk.injEq] at hedge
      obtain ⟨rfl, rfl⟩ := hedge
      rw [if_pos rfl, hf]
    | false =>
      rw [hk] at hedge
      rw [if_neg Bool.false_ne_true, ih hedge]

/-- A change behind an edge that is there changes nothing if it leaves the node behind the edge as
it is. -/
theorem update_cons_eq_self {f : Node α → Node α} {t : Token} {path : List Token}
    {n child : Node α} (hstep : n.step? cmp t = some child)
    (hchild : update cmp f path child = child) : update cmp f (t :: path) n = n := by
  obtain ⟨v, ws, ss⟩ := n
  rw [step?] at hstep
  rw [update]
  split at hstep
  · next ht =>
    obtain ⟨⟨m, d⟩, hedge, rfl⟩ := Option.map_eq_some_iff.1 hstep
    rw [if_pos ht]
    exact congrArg (mk v ws) (updateSet_eq_self hedge hchild)
  · next ht =>
    obtain ⟨⟨u, d⟩, hedge, rfl⟩ := Option.map_eq_some_iff.1 hstep
    rw [if_neg ht]
    exact congrArg (mk v · ss) (updateWord_eq_self t hedge hchild)

/-- Where there is an entry, an insertion leaves every node, edge and entry as it was. -/
theorem update_setEntry_eq_self {path : List Token} {n : Node α} {b : α} (a : α)
    (h : n.valueAt? cmp path = some b) : update cmp (setEntry a) path n = n := by
  -- all nodes of the path are there already, down to the one that has the entry
  induction path generalizing n with
  | nil =>
    obtain ⟨v, ws, ss⟩ := n
    obtain rfl : v = some b := h
    rfl
  | cons t path ih =>
    rw [valueAt?_cons] at h
    obtain ⟨child, hstep, hchild⟩ := Option.bind_eq_some_iff.1 h
    exact update_cons_eq_self hstep (ih hchild)

end Node

namespace Graph

/-- An insertion under a path that has an entry is refused, and the entry is handed back. -/
theorem insert_eq_self {g : Graph α} {path : List Token} {b : α} (a : α)
    (h : g.get? path = some b) : g.insert path a = (g, some b) := by
  rw [insert, h, Node.update_setEntry_eq_self a h]

/-! ## Entries one after the other -/

/-- The graph of some entries, which are added one after the other. -/
def insertAll (cmp : Comparer) (entries : List (List Token × α)) : Graph α :=
  entries.foldl (fun g entry => (g.insert entry.1 entry.2).1) (.empty cmp)

/-- Whether the `i`th of some entries is `a` and is the first one whose path is the same as `q`. -/
def IsFirst (cmp : Comparer) (entries : List (List Token × α)) (q : List Token) (i : Nat) (a : α) :
    Prop :=
  ∃ p, entries[i]? = some (p, a) ∧ List.Forall₂ (fun t u => t.matchesUnder cmp u = true) p q ∧
    ∀ j < i, ∀ p' b, entries[j]? = some (p', b) →
      ¬ List.Forall₂ (fun t u => t.matchesUnder cmp u = true) p' q

@[simp] theorem insertAll_nil : (insertAll cmp [] : Graph α) = .empty cmp := rfl

theorem insertAll_concat (entries : List (List Token × α)) (path : List Token) (a : α) :
    insertAll cmp (entries ++ [(path, a)]) = ((insertAll cmp entries).insert path a).1 := by
  rw [insertAll, List.foldl_append, List.foldl_cons, List.foldl_nil, insertAll]

@[simp] theorem comparer_insertAll (entries : List (List Token × α)) :
    (insertAll cmp entries).comparer = cmp := by
  induction entries using List.reverseRecOn with
  | nil => rfl
  | append_singleton entries entry ih =>
    rw [insertAll_concat]
    exact ih

/-- A path has the first of the entries that were added under it, in whatever spelling. -/
theorem get?_insertAll (entries : List (List Token × α)) (q : List Token) :
    (insertAll cmp entries).get? q =
      (entries.find? fun entry => samePath cmp entry.1 q).map Prod.snd := by
  -- induction on the entries from the last one back, which is the one that may be refused
  induction entries using List.reverseRecOn with
  | nil =>
    rw [insertAll_nil, get?_eq_valueAt?]
    exact Node.valueAt?_empty q
  | append_singleton entries entry ih =>
    obtain ⟨p, a⟩ := entry
    rw [insertAll_concat, get?_insert_eq, comparer_insertAll, List.find?_append,
      List.find?_singleton]
    cases hp : samePath cmp p q with
    | false =>
      rw [if_neg Bool.false_ne_true, ih]
      simp
    | true =>
      -- both paths have the same entry, if there was one before
      have hsame : (insertAll cmp entries).get? p = (insertAll cmp entries).get? q := by
        rw [get?_eq_valueAt?, get?_eq_valueAt?, comparer_insertAll]
        exact Node.valueAt?_congr hp _
      rw [if_pos rfl, hsame, ih]
      cases entries.find? fun entry => samePath cmp entry.1 q <;> simp

theorem get?_insertAll_eq_some_iff {entries : List (List Token × α)} {q : List Token} {a : α} :
    (insertAll cmp entries).get? q = some a ↔ ∃ i, IsFirst cmp entries q i a := by
  rw [get?_insertAll, Option.map_eq_some_iff]
  constructor
  · rintro ⟨⟨p, b⟩, hfind, rfl⟩
    obtain ⟨hp, i, hi, hget, hbefore⟩ := List.find?_eq_some_iff_getElem.1 hfind
    refine ⟨i, p, ?_, samePath_iff_forall₂.1 hp, ?_⟩
    · rw [List.getElem?_eq_getElem hi, hget]
    · intro j hj p' b' hj' hsame
      have hnot := hbefore j hj
      obtain ⟨hlt, hget'⟩ := List.getElem?_eq_some_iff.1 hj'
      rw [hget', samePath_iff_forall₂.2 hsame] at hnot
      exact absurd hnot (by decide)
  · rintro ⟨i, p, hi, hp, hbefore⟩
    obtain ⟨hlt, hget⟩ := List.getElem?_eq_some_iff.1 hi
    refine ⟨(p, a), List.find?_eq_some_iff_getElem.2 ⟨samePath_iff_forall₂.2 hp, i, hlt, hget, ?_⟩,
      rfl⟩
    intro j hj
    have hnot := hbefore j hj entries[j].1 entries[j].2 (List.getElem?_eq_getElem _)
    rw [← samePath_iff_forall₂, Bool.not_eq_true] at hnot
    rw [hnot]
    rfl

/-- An entry is the first of its path among the entries up to it exactly if none before it is. -/
theorem isFirst_self_iff {entries : List (List Token × α)} {i : Nat} {p : List Token} {a : α}
    (h : entries[i]? = some (p, a)) :
    IsFirst cmp entries p i a ↔ (insertAll cmp (entries.take i)).get? p = none := by
  rw [get?_insertAll, Option.map_eq_none_iff, List.find?_eq_none]
  constructor
  · rintro ⟨p', hp', -, hbefore⟩ ⟨r, b⟩ hmem hsame
    obtain ⟨j, hj⟩ := List.mem_iff_getElem?.1 hmem
    rw [List.getElem?_take] at hj
    split at hj
    · next hlt => exact hbefore j hlt r b hj (samePath_iff_forall₂.1 hsame)
    · cases hj
  · intro hnone
    refine ⟨p, h, samePath_iff_forall₂.1 (samePath_self cmp p), ?_⟩
    -- an earlier entry under the same path would already be found
    intro j hj r b hr hsame
    have hmem : (r, b) ∈ entries.take i := by
      refine List.mem_iff_getElem?.2 ⟨j, ?_⟩
      rw [List.getElem?_take, if_pos hj, hr]
    exact hnone (r, b) hmem (samePath_iff_forall₂.2 hsame)

/-- Being the first of a path is decided by the entries up to it. -/
theorem IsFirst.of_take {entries : List (List Token × α)} {i j : Nat} {q : List Token} {a : α}
    (h : IsFirst cmp (entries.take i) q j a) : j < i ∧ IsFirst cmp entries q j a := by
  obtain ⟨p, hj, hp, hbefore⟩ := h
  rw [List.getElem?_take] at hj
  split at hj
  · next hlt =>
    refine ⟨hlt, p, hj, hp, ?_⟩
    intro k hk p' b hk'
    exact hbefore k hk p' b (by rw [List.getElem?_take, if_pos (by omega), hk'])
  · cases hj

/-- **The first entry of a path stays.** However entries are added to an empty graph, a look-up
leads to a node with an entry exactly if the path is the same as that of some entry, and the entry
is then the first such one. To add an entry gives nothing back if it is the first of its path; if it
is not, the first one is given back and the graph is what it was. -/
theorem insertAll_keeps_first (cmp : Comparer) (entries : List (List Token × α)) :
    (∀ q a, (∃ n, (insertAll cmp entries).find? q = some n ∧ n.value? = some a) ↔
      ∃ i, IsFirst cmp entries q i a) ∧
    ∀ i p a, entries[i]? = some (p, a) →
      insertAll cmp (entries.take (i + 1)) = ((insertAll cmp (entries.take i)).insert p a).1 ∧
      (IsFirst cmp entries p i a → ((insertAll cmp (entries.take i)).insert p a).2 = none) ∧
      (¬ IsFirst cmp entries p i a → ∃ j < i, ∃ b, IsFirst cmp entries p j b ∧
        (insertAll cmp (entries.take i)).insert p a =
          (insertAll cmp (entries.take i), some b)) := by
  refine ⟨?_, ?_⟩
  · intro q a
    rw [← get?_insertAll_eq_some_iff, get?, Option.bind_eq_some_iff]
  · intro i p a hi
    refine ⟨?_, ?_, ?_⟩
    · rw [List.take_add_one, hi, Option.toList_some, insertAll_concat]
    · intro hfirst
      exact (isFirst_self_iff hi).1 hfirst
    · intro hnot
      rw [isFirst_self_iff hi] at hnot
      -- something is found under the path before, and it is the entry of the first such path
      obtain ⟨b, hb⟩ := Option.ne_none_iff_exists'.1 hnot
      obtain ⟨j, hj⟩ := get?_insertAll_eq_some_iff.1 hb
      obtain ⟨hlt, hfirst⟩ := hj.of_take
      exact ⟨j, hlt, b, hfirst, insert_eq_self a hb⟩

/-- Another spelling of a path is the same path, and a set is not the word of its name. -/
example :
    let g := insertAll .ignoreCase [([.word "Hello"], 1), ([.set "HELLO"], 2), ([.word "HELLO"], 3)]
    g.get? [.word "hello"] = some 1 ∧ g.get? [.set "hello"] = some 2 ∧ g.size = 2 := by
  decide +kernel

end Graph

end Parley
