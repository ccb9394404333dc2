import Parley.Proofs.FirstEntry
import Parley.Proofs.Search.Priority

/-!
# What a search finds is stored

A search makes nothing up: the entry that it finds is the entry of some node of one of the graphs.
Whatever holds for every entry that is stored therefore holds for every entry that is found. What is
stored is in turn no more than what was added.

Main results:

* `Node.stores_of_follow?` — a way ends at an entry that is stored;
* `stores_of_search` — the entry that a search finds is stored in the graph it is from;
* `Graph.exists_mem_of_stores_insertAll` — what is stored was added.
-/

namespace Parley

variable {α : Type}

/-- Whether an entry is stored at a node or anywhere below it. -/
inductive Node.Stores : Node α → α → Prop where
  | own {n : Node α} {a : α} (value : n.value? = some a) : n.Stores a
  | word {n child : Node α} {a : α} {key : String} {t : Token}
      (edge : (key, t, child) ∈ n.words) (below : child.Stores a) : n.Stores a
  | set {n child : Node α} {a : α} {name : String} (edge : (name, child) ∈ n.sets)
      (below : child.Stores a) : n.Stores a

/-- Whether an entry is stored in a graph. -/
def Graph.Stores (g : Graph α) (a : α) : Prop := g.root.Stores a

namespace Node

variable {q : Query} {n child : Node α} {c : Cursor} {a : α}

theorem Stores.of_child? {cmp : Comparer} {text : String} {t : Token}
    (hedge : n.child? cmp text = some (t, child)) (h : child.Stores a) : n.Stores a :=
  .word (Entries.mem_of_lookup_eq_some hedge) h

/-- What is stored where a choice leads is stored where it was made. -/
theorem Stores.of_advance? {ch : Choice} {adv : Advance α} (hadvance : n.advance? q c ch = some adv)
    (h : adv.child.Stores a) : n.Stores a := by
  -- by the kinds of choices; all but the phrases go along word edges
  cases ch with
  | preferred =>
    rw [advance?] at hadvance
    split at hadvance
    · cases hadvance
    · obtain ⟨⟨t, child⟩, hedge, rfl⟩ := Option.map_eq_some_iff.1 hadvance
      exact h.of_child? hedge
  | wildcard w k =>
    rw [advance?] at hadvance
    split at hadvance
    · obtain ⟨⟨t, child⟩, hedge, rfl⟩ := Option.map_eq_some_iff.1 hadvance
      exact h.of_child? hedge
    · cases hadvance
  | plain =>
    rw [advance?] at hadvance
    split at hadvance
    · split at hadvance
      · cases hadvance
      · obtain ⟨⟨t, child⟩, hedge, rfl⟩ := Option.map_eq_some_iff.1 hadvance
        exact h.of_child? hedge
    · obtain ⟨separator, -, hseparator⟩ := Option.bind_eq_some_iff.1 hadvance
      obtain ⟨⟨t, child⟩, hedge, rfl⟩ := Option.map_eq_some_iff.1 hseparator
      exact h.of_child? hedge
  | phrase i k =>
    rw [advance?] at hadvance
    obtain ⟨⟨name, child⟩, hedge, htake⟩ := Option.bind_eq_some_iff.1 hadvance
    obtain ⟨set, -, htake⟩ := Option.bind_eq_some_iff.1 htake
    split at htake
    · obtain rfl := Option.some.inj htake
      exact .set (List.mem_of_getElem? hedge) h
    · cases htake

/-- A way from a node ends at an entry that is stored there. -/
theorem stores_of_follow? {p : Progress} {chs : List Choice} {way : Way α}
    (h : n.follow? q c p chs = some way) : n.Stores way.entry := by
  induction chs generalizing n c p with
  | nil =>
    rw [follow?] at h
    split at h
    · obtain ⟨entry, hvalue, rfl⟩ := Option.map_eq_some_iff.1 h
      exact .own hvalue
    · cases h
  | cons ch chs ih =>
    rw [follow?] at h
    obtain ⟨adv, hadvance, hrest⟩ := Option.bind_eq_some_iff.1 h
    exact (ih hrest).of_advance? hadvance

end Node

theorem Graph.stores_of_firstMatch? {options : SearchOptions} {input : Input} {g : Graph α}
    {way : Way α} (h : g.firstMatch? options input = some way) : g.Stores way.entry := by
  obtain ⟨chs, hmatch, -⟩ := Graph.firstMatch?_eq_some_iff.1 h
  exact Node.stores_of_follow? hmatch

/-- The entry that a search finds is stored in one of the graphs. -/
theorem stores_of_search {options : SearchOptions} {graphs : List (Graph α)} {input : Input}
    {found : Found α} (h : (search options graphs input).result = .ok (some found)) :
    ∃ g ∈ graphs, g.Stores found.entry := by
  obtain ⟨g, way, hroot, hg, hfound⟩ := exists_firstMatch?_of_search h
  rw [hfound]
  exact ⟨g, List.mem_of_getElem? hroot, Graph.stores_of_firstMatch? hg⟩

/-! ## Adding entries -/

namespace Node

variable {cmp : Comparer} {a b : α}

theorem not_stores_empty (a : α) : ¬ (empty : Node α).Stores a := by
  intro h
  cases h with
  | own value => cases value
  | word edge below => cases edge
  | set edge below => cases edge

/-- After an insertion, what is stored was inserted or was stored before. -/
theorem Stores.of_update_setEntry {path : List Token} {n : Node α}
    (h : (update cmp (setEntry a) path n).Stores b) : b = a ∨ n.Stores b := by
  induction path generalizing n with
  | nil =>
    obtain ⟨value?, ws, ss⟩ := n
    cases value? with
    | some c => exact Or.inr h
    | none =>
      cases h with
      | own value => exact Or.inl (Option.some.inj value).symm
      | word edge below => exact Or.inr (.word edge below)
      | set edge below => exact Or.inr (.set edge below)
  | cons t path ih =>
    obtain ⟨value?, ws, ss⟩ := n
    -- what is behind the edge of the path was there or comes from the rest of the path
    have hchanged : ∀ m : Node α, (∀ c, m.Stores c → (mk value? ws ss).Stores c) →
        (update cmp (setEntry a) path m).Stores b → b = a ∨ (mk value? ws ss).Stores b :=
      fun m hm hb => (ih hb).imp_right (hm b)
    have hnew := hchanged empty fun c hc => absurd hc (not_stores_empty c)
    rw [update] at h
    split at h
    · cases h with
      | own value => exact Or.inr (.own value)
      | word edge below => exact Or.inr (.word edge below)
      | set edge below =>
        rcases mem_updateSet edge with hedge | ⟨m, old, hedge, hchild⟩ | hchild
        · exact Or.inr (.set hedge below)
        · cases hchild
          exact hchanged old (fun c hc => .set hedge hc) below
        · cases hchild
          exact hnew below
    · cases h with
      | own value => exact Or.inr (.own value)
      | word edge below =>
        rcases mem_updateWord edge with hedge | ⟨u, old, hedge, hchild⟩ | hchild
        · exact Or.inr (.word hedge below)
        · cases hchild
          exact hchanged old (fun c hc => .word hedge hc) below
        · cases hchild
          exact hnew below
      | set edge below => exact Or.inr (.set edge below)

end Node

/-- What is stored in a graph was added to it. -/
theorem Graph.exists_mem_of_stores_insertAll {cmp : Comparer} {entries : List (List Token × α)}
    {a : α} (h : (insertAll cmp entries).Stores a) : ∃ path, (path, a) ∈ entries := by
  induction entries using List.reverseRecOn with
  | nil => exact absurd h (Node.not_stores_empty a)
  | append_singleton entries entry ih =>
    rw [insertAll_concat] at h
    rcases h.of_update_setEntry with rfl | h
    · exact ⟨entry.1, List.mem_append_right _ (List.mem_singleton_self _)⟩
    · obtain ⟨path, hmem⟩ := ih h
      exact ⟨path, List.mem_append_left _ hmem⟩

end Parley
