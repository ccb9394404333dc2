import Mathlib.Data.List.Nodup
import Mathlib.Data.List.Pairwise
import Parley.Proofs.FirstEntry

/-!
# The same entries in another order

Nodes and edges, and the tokens that edges show, are made by whichever entry comes first, so that
the same entries in another order give another tree. What does not depend on the order is where each
path leads to. If there are no sets, whose edges are tried and listed in the order in which they
were added, all that can be seen of a tree depends on this alone: an edge that leads to an entry has
its counterpart in every tree with the same entries, under the same key.

Main results:

* `Node.Rearranged.exists_child?` — an edge that leads to an entry has its counterpart;
* `Node.Rearranged.map_snd_listing` — the entries are listed in the same order;
* `Graph.rearranged_insertAll` — entries with different paths can be added in any order.
-/

namespace Parley

variable {α : Type} {cmp : Comparer}

namespace Node

/-! ## Trees without sets -/

/-- Whether there is no edge for a set at a node or anywhere below it. -/
inductive SetFree : Node α → Prop where
  | mk {value? : Option α} {ws : List (String × Token × Node α)}
      (below : ∀ e ∈ ws, SetFree e.2.2) : SetFree (.mk value? ws [])

/-- The empty tree has no sets. -/
theorem setFree_empty : (empty : Node α).SetFree := .mk (by simp)

/-- A node without sets has no edges for them. -/
theorem SetFree.sets_eq_nil {n : Node α} (h : n.SetFree) : n.sets = [] := by
  cases h
  rfl

/-- The nodes behind the edges of a tree without sets have none either. -/
theorem SetFree.of_child? {n child : Node α} {text : String} {t : Token} (h : n.SetFree)
    (hchild : n.child? cmp text = some (t, child)) : child.SetFree := by
  obtain ⟨below⟩ := h
  exact below _ (Entries.mem_of_lookup_eq_some hchild)

/-- An entry is no set. -/
theorem SetFree.setEntry (a : α) {n : Node α} (h : n.SetFree) : (Node.setEntry a n).SetFree := by
  obtain ⟨v | v, ws, ss⟩ := n
  all_goals
    obtain ⟨below⟩ := h
    exact .mk below

/-- A change at the end of a path without sets makes no edges for sets. -/
theorem SetFree.update {f : Node α → Node α} (hf : ∀ m : Node α, m.SetFree → (f m).SetFree)
    {path : List Token} (hpath : ∀ t ∈ path, t.isSet = false) {n : Node α} (h : n.SetFree) :
    (Node.update cmp f path n).SetFree := by
  induction path generalizing n with
  | nil => exact hf n h
  | cons t path ih =>
    obtain ⟨below⟩ := h
    rw [List.forall_mem_cons] at hpath
    rw [Node.update, hpath.1, if_neg Bool.false_ne_true]
    refine .mk ?_
    intro e he
    rcases mem_updateWord he with he | ⟨u, m, hmem, rfl⟩ | rfl
    · exact below e he
    · exact ih hpath.2 (below _ hmem)
    · exact ih hpath.2 setFree_empty

/-! ## Trees with the same entries -/

/-- Whether two trees without sets have the same entries: every path leads to the same in both. -/
structure Rearranged (cmp : Comparer) (n m : Node α) : Prop where
  keyed_left : n.WellKeyed cmp
  keyed_right : m.WellKeyed cmp
  setFree_left : n.SetFree
  setFree_right : m.SetFree
  entries : ∀ path, m.valueAt? cmp path = n.valueAt? cmp path

namespace Rearranged

variable {n m : Node α}

/-- Either tree can come first. -/
theorem symm (h : n.Rearranged cmp m) : m.Rearranged cmp n :=
  ⟨h.keyed_right, h.keyed_left, h.setFree_right, h.setFree_left, fun path => (h.entries path).symm⟩

/-- The empty path leads to the entry of the root. -/
theorem value?_eq (h : n.Rearranged cmp m) : m.value? = n.value? := h.entries []

/-- **An edge that leads to an entry has its counterpart:** there is an edge for the same texts, its
token is the same, and behind it there are the same entries. -/
theorem exists_child? (h : n.Rearranged cmp m) {text : String} {t : Token} {child : Node α}
    (hchild : n.child? cmp text = some (t, child)) {path : List Token} {a : α}
    (hentry : child.valueAt? cmp path = some a) :
    ∃ u child', m.child? cmp text = some (u, child') ∧ cmp.equals t.text u.text = true ∧
      child.Rearranged cmp child' := by
  obtain ⟨plain, hkey, hedge, hkeyed⟩ := h.keyed_left.of_child? hchild
  -- the path to the entry goes along the edge, and it leads to the entry in the other tree too
  have hbehind : ∀ rest, n.valueAt? cmp (t :: rest) = child.valueAt? cmp rest := by
    intro rest
    rw [valueAt?_cons, hedge, Option.bind_some]
  have hother : m.valueAt? cmp (t :: path) = some a := by
    rw [h.entries, hbehind, hentry]
  rw [valueAt?_cons] at hother
  obtain ⟨child', hedge', -⟩ := Option.bind_eq_some_iff.1 hother
  have hbehind' : ∀ rest, m.valueAt? cmp (t :: rest) = child'.valueAt? cmp rest := by
    intro rest
    rw [valueAt?_cons, hedge', Option.bind_some]
  rw [step?_of_plain plain] at hedge'
  obtain ⟨⟨u, d⟩, hchild', rfl⟩ := Option.map_eq_some_iff.1 hedge'
  obtain ⟨-, hkey', -, hkeyed'⟩ := h.keyed_right.of_child? hchild'
  refine ⟨u, d, ?_, ?_, hkeyed, hkeyed', h.setFree_left.of_child? hchild,
    h.setFree_right.of_child? hchild', ?_⟩
  · rw [← hchild', child?_congr ((cmp.equals_iff_key_eq ..).2 hkey)]
  · rw [Comparer.equals_iff_key_eq, hkey']
  · intro rest
    rw [← hbehind', h.entries, hbehind]

end Rearranged

/-! ## Listing -/

/-- Word edges are under the keys of their tokens, and found there. -/
theorem WellKeyed.child?_of_mem {n child : Node α} {key : String} {t : Token}
    (hn : n.WellKeyed cmp) (h : (key, t, child) ∈ n.words) :
    cmp.key t.text = key ∧ n.child? cmp t.text = some (t, child) := by
  obtain ⟨tokens, keys, -, -, -⟩ := hn
  have hkey : cmp.key t.text = key := (tokens _ h).2
  refine ⟨hkey, ?_⟩
  rw [child?, hkey]
  rw [words] at h ⊢
  clear tokens
  -- no edge before this one has the key
  induction keys with
  | nil => cases h
  | @cons e rest hfirst _ ih =>
    obtain ⟨k, u, m⟩ := e
    rw [Entries.lookup_cons_eq]
    rcases List.mem_cons.1 h with heq | hmem
    · obtain ⟨rfl, rfl, rfl⟩ := heq
      rw [if_pos rfl]
    · rw [if_neg (hfirst _ hmem).symm]
      exact ih hmem

/-- What is listed below some words, under their keys. -/
theorem listingWords_eq_map (path : String) (ws : List (String × Token × Node α)) :
    listingWords path ws =
      ws.map fun e => (e.1, e.2.2.listing (extendPath path e.2.1.display)) := by
  induction ws with
  | nil => rfl
  | cons e rest ih =>
    obtain ⟨key, t, n⟩ := e
    rw [listingWords, ih, List.map_cons]

/-- Without sets, the listing of a node is its own entry and then those below its edges, in the
order of their keys. -/
theorem SetFree.listing_eq {n : Node α} (h : n.SetFree) (path : String) :
    n.listing path =
      n.value?.toList.map (fun a => (path, a)) ++
        (inKeyOrder (n.words.map fun e =>
          (e.1, e.2.2.listing (extendPath path e.2.1.display)))).flatMap Prod.snd := by
  obtain ⟨below⟩ := h
  rw [listing, listingWords_eq_map, listingSets, List.append_nil]
  rfl

/-- To sort changes no member. -/
theorem mem_inKeyOrder {β : Type} {entries : List (String × β)} {e : String × β} :
    e ∈ inKeyOrder entries ↔ e ∈ entries :=
  (List.mergeSort_perm ..).mem_iff

/-- What is listed is where some path leads to. -/
theorem exists_valueAt?_of_mem_listing {n : Node α} (hn : n.WellKeyed cmp) (hfree : n.SetFree)
    {path : String} {e : String × α} (h : e ∈ n.listing path) :
    ∃ p, n.valueAt? cmp p = some e.2 := by
  -- induction on the node; an entry is its own or is listed below one of its edges
  induction hsize : sizeOf n using Nat.strongRecOn generalizing n path with
  | _ size ih =>
    subst hsize
    rw [hfree.listing_eq, List.mem_append] at h
    rcases h with h | h
    · obtain ⟨a, ha, rfl⟩ := List.mem_map.1 h
      exact ⟨[], Option.mem_toList.1 ha⟩
    · obtain ⟨below, hbelow, he⟩ := List.mem_flatMap.1 h
      rw [mem_inKeyOrder] at hbelow
      obtain ⟨⟨key, t, child⟩, hedge, rfl⟩ := List.mem_map.1 hbelow
      obtain ⟨-, hchild⟩ := hn.child?_of_mem hedge
      obtain ⟨-, -, hstep, hkeyed⟩ := hn.of_child? hchild
      obtain ⟨p, hp⟩ := ih _ (sizeOf_lt_of_child? hchild) hkeyed (hfree.of_child? hchild) he rfl
      refine ⟨t :: p, ?_⟩
      rw [valueAt?_cons, hstep, Option.bind_some, hp]

/-- The order is that of the keys, whatever is done to the values. -/
theorem map_inKeyOrder {β γ : Type} (f : β → γ) (entries : List (String × β)) :
    (inKeyOrder entries).map (fun e => (e.1, f e.2)) =
      inKeyOrder (entries.map fun e => (e.1, f e.2)) :=
  List.map_mergeSort fun _ _ _ _ => rfl

/-- The keys come in ascending order. -/
theorem pairwise_inKeyOrder {β : Type} (entries : List (String × β)) :
    (inKeyOrder entries).Pairwise fun a b => a.1 ≤ b.1 := by
  have hsorted := @List.pairwise_mergeSort _ (fun a b : String × β => decide (a.1 ≤ b.1))
    (fun a b c hab hbc => by simpa using String.le_trans (by simpa using hab) (by simpa using hbc))
    (fun a b => by simpa using String.le_total a.1 b.1) entries
  exact hsorted.imp fun hle => of_decide_eq_true hle

/-- Empty lists do not matter when lists are put together. -/
theorem flatMap_filter_ne_nil {β : Type} (entries : List (String × List β)) :
    (entries.filter fun e => !e.2.isEmpty).flatMap Prod.snd = entries.flatMap Prod.snd := by
  induction entries with
  | nil => rfl
  | cons e rest ih =>
    obtain ⟨key, l⟩ := e
    cases l with
    | nil =>
      rw [List.filter_cons_of_neg (by simp), ih]
      rfl
    | cons b l => rw [List.filter_cons_of_pos (by simp), List.flatMap_cons, List.flatMap_cons, ih]

/-- Lists under different keys are put together to the same in the order of their keys if those that
are not empty are the same. -/
theorem flatMap_inKeyOrder_congr {β : Type} {xs ys : List (String × List β)}
    (hxs : xs.Pairwise fun a b => a.1 ≠ b.1) (hys : ys.Pairwise fun a b => a.1 ≠ b.1)
    (h : ∀ e, e.2 ≠ [] → (e ∈ xs ↔ e ∈ ys)) :
    (inKeyOrder xs).flatMap Prod.snd = (inKeyOrder ys).flatMap Prod.snd := by
  have hnodup : ∀ l : List (String × List β), (l.Pairwise fun a b => a.1 ≠ b.1) →
      ((inKeyOrder l).filter fun e => !e.2.isEmpty).Nodup := by
    intro l hl
    have hperm : (inKeyOrder l).Perm l := List.mergeSort_perm ..
    refine (hperm.nodup_iff.2 (hl.imp fun hne heq => hne ?_)).filter _
    rw [heq]
  have hmem : ∀ e, e ∈ (inKeyOrder xs).filter (fun e => !e.2.isEmpty) ↔
      e ∈ (inKeyOrder ys).filter fun e => !e.2.isEmpty := by
    intro e
    simp only [List.mem_filter, mem_inKeyOrder, Bool.not_eq_true', List.isEmpty_eq_false_iff]
    exact and_congr_left (h e)
  rw [← flatMap_filter_ne_nil (inKeyOrder xs), ← flatMap_filter_ne_nil (inKeyOrder ys)]
  congr 1
  refine @List.Perm.eq_of_pairwise _ (fun a b => a.1 ≤ b.1) _ _ ?_
    ((pairwise_inKeyOrder xs).filter _) ((pairwise_inKeyOrder ys).filter _)
    ((List.perm_ext_iff_of_nodup (hnodup xs hxs) (hnodup ys hys)).2 hmem)
  intro a b ha hb hab hba
  -- both are among the first lists, where a key has one list only
  have hin : ∀ e ∈ (inKeyOrder xs).filter (fun e => !e.2.isEmpty), e ∈ xs :=
    fun e he => mem_inKeyOrder.1 (List.mem_filter.1 he).1
  have hkeys : (xs.map Prod.fst).Nodup := List.pairwise_map.2 hxs
  exact List.inj_on_of_nodup_map hkeys (hin a ha) (hin b ((hmem b).2 hb))
    (String.le_antisymm hab hba)

/-- What is listed below each of the word edges of a node, under the key of the edge. -/
def belowEdges (path : String) (n : Node α) : List (String × List α) :=
  n.words.map fun e => (e.1, (e.2.2.listing (extendPath path e.2.1.display)).map Prod.snd)

/-- Without sets, a listing is the entry of the node and what is below its words in order. -/
theorem SetFree.map_snd_listing {n : Node α} (h : n.SetFree) (path : String) :
    (n.listing path).map Prod.snd =
      n.value?.toList ++ (inKeyOrder (n.belowEdges path)).flatMap Prod.snd := by
  have hsorted : inKeyOrder (n.belowEdges path) =
      (inKeyOrder (n.words.map fun e =>
        (e.1, e.2.2.listing (extendPath path e.2.1.display)))).map
          fun e => (e.1, e.2.map Prod.snd) := by
    rw [map_inKeyOrder, List.map_map]
    rfl
  rw [h.listing_eq, List.map_append, List.map_map, List.map_flatMap, hsorted, List.flatMap_map]
  congr 1
  exact List.map_id _

/-- Different edges of a well-keyed node have different keys. -/
theorem WellKeyed.pairwise_belowEdges {n : Node α} (hn : n.WellKeyed cmp) (path : String) :
    (n.belowEdges path).Pairwise fun a b => a.1 ≠ b.1 := by
  obtain ⟨-, keys, -, -, -⟩ := hn
  exact List.pairwise_map.2 keys

/-- What is listed below an edge is listed below its counterpart, if this holds for the nodes that
the two lead to. -/
theorem Rearranged.mem_belowEdges {n m : Node α} (h : n.Rearranged cmp m) {path : String}
    (path' : String)
    (hbelow : ∀ text t u child child', n.child? cmp text = some (t, child) →
      m.child? cmp text = some (u, child') → child.Rearranged cmp child' →
      ∀ p p', (child.listing p).map Prod.snd = (child'.listing p').map Prod.snd)
    {e : String × List α} (hne : e.2 ≠ []) (he : e ∈ n.belowEdges path) :
    e ∈ m.belowEdges path' := by
  obtain ⟨⟨key, t, child⟩, hedge, rfl⟩ := List.mem_map.1 he
  obtain ⟨hkey, hchild⟩ := h.keyed_left.child?_of_mem hedge
  obtain ⟨-, -, -, hkeyed⟩ := h.keyed_left.of_child? hchild
  -- something is listed, so that the edge leads to an entry
  obtain ⟨a, ha⟩ := List.exists_mem_of_ne_nil _ hne
  obtain ⟨listed, hlisted, rfl⟩ := List.mem_map.1 ha
  obtain ⟨p, hp⟩ :=
    exists_valueAt?_of_mem_listing hkeyed (h.setFree_left.of_child? hchild) hlisted
  obtain ⟨u, child', hchild', -, hrest⟩ := h.exists_child? hchild hp
  refine List.mem_map.2 ⟨(key, u, child'), hkey ▸ Entries.mem_of_lookup_eq_some hchild', ?_⟩
  rw [hbelow t.text t u child child' hchild hchild' hrest]

/-- **Trees with the same entries list them in the same order,** whatever the paths to the two
nodes are. -/
theorem Rearranged.map_snd_listing {n m : Node α} (h : n.Rearranged cmp m) (path path' : String) :
    (n.listing path).map Prod.snd = (m.listing path').map Prod.snd := by
  -- induction on the first node, which the counterparts of its edges follow in the second
  induction hsize : sizeOf n using Nat.strongRecOn generalizing n m path path' with
  | _ size ih =>
    subst hsize
    rw [h.setFree_left.map_snd_listing, h.setFree_right.map_snd_listing, h.value?_eq]
    congr 1
    refine flatMap_inKeyOrder_congr (h.keyed_left.pairwise_belowEdges path)
      (h.keyed_right.pairwise_belowEdges path') ?_
    intro e hne
    constructor
    · refine h.mem_belowEdges path' ?_ hne
      intro text t u child child' hchild _ hrest p p'
      exact ih _ (sizeOf_lt_of_child? hchild) hrest p p' rfl
    · refine h.symm.mem_belowEdges path ?_ hne
      intro text t u child child' _ hchild' hrest p p'
      exact (ih _ (sizeOf_lt_of_child? hchild') hrest.symm p' p rfl).symm

end Node

/-! ## Entries in any order -/

namespace Graph

/-- Additions build a graph. -/
theorem builtUnder_insertAll (entries : List (List Token × α)) :
    (insertAll cmp entries).BuiltUnder cmp := by
  induction entries using List.reverseRecOn with
  | nil => exact .empty
  | append_singleton entries entry ih =>
    rw [insertAll_concat]
    exact .insert entry.1 entry.2 ih

/-- Paths without sets build a graph without sets. -/
theorem setFree_insertAll {entries : List (List Token × α)}
    (hsets : ∀ entry ∈ entries, ∀ t ∈ entry.1, t.isSet = false) :
    (insertAll cmp entries).root.SetFree := by
  induction entries using List.reverseRecOn with
  | nil => exact Node.setFree_empty
  | append_singleton entries entry ih =>
    rw [insertAll_concat]
    have hentry := hsets entry (List.mem_append_right _ (List.mem_singleton_self _))
    refine Node.SetFree.update (fun _ hm => hm.setEntry entry.2) hentry (ih ?_)
    intro other hother
    exact hsets other (List.mem_append_left _ hother)

/-- If no two paths are the same, each of the entries is found under its own path. -/
theorem get?_insertAll_eq_some_iff_mem {entries : List (List Token × α)}
    (hpaths : entries.Pairwise fun e e' => samePath cmp e.1 e'.1 = false) {q : List Token}
    {a : α} :
    (insertAll cmp entries).get? q = some a ↔ ∃ p, (p, a) ∈ entries ∧ samePath cmp p q = true := by
  rw [get?_insertAll, Option.map_eq_some_iff]
  constructor
  · rintro ⟨⟨p, b⟩, hfind, rfl⟩
    have hp := List.find?_some hfind
    exact ⟨p, List.mem_of_find?_eq_some hfind, hp⟩
  · rintro ⟨p, hmem, hp⟩
    have hsome : (entries.find? fun entry => samePath cmp entry.1 q).isSome :=
      List.find?_isSome.2 ⟨(p, a), hmem, hp⟩
    obtain ⟨entry, hfind⟩ := Option.isSome_iff_exists.1 hsome
    -- the entry that is found has the same path, so that it is this one
    have hentry := List.find?_some hfind
    have hsame : samePath cmp entry.1 p = true := by
      rw [samePath_iff_map_eq] at hentry hp ⊢
      rw [hentry, hp]
    have hsymm : Std.Symm fun e e' : List Token × α => samePath cmp e.1 e'.1 = false :=
      ⟨fun e e' hee' => by rw [samePath_comm, hee']⟩
    have heq : entry = (p, a) := by
      by_contra hne
      have hdiffers := hpaths.forall (List.mem_of_find?_eq_some hfind) hmem hne
      rw [hsame] at hdiffers
      cases hdiffers
    exact ⟨entry, hfind, by rw [heq]⟩

/-- **Entries with different paths can be added in any order:** every path leads to the same. -/
theorem rearranged_insertAll {entries entries' : List (List Token × α)}
    (hperm : entries.Perm entries')
    (hsets : ∀ entry ∈ entries, ∀ t ∈ entry.1, t.isSet = false)
    (hpaths : entries.Pairwise fun e e' => samePath cmp e.1 e'.1 = false) :
    (insertAll cmp entries).root.Rearranged cmp (insertAll cmp entries').root := by
  have hpaths' : entries'.Pairwise fun e e' => samePath cmp e.1 e'.1 = false :=
    (hperm.pairwise_iff fun hee' => by rw [samePath_comm, hee']).1 hpaths
  refine ⟨(builtUnder_insertAll _).wellKeyed, (builtUnder_insertAll _).wellKeyed,
    setFree_insertAll hsets, setFree_insertAll fun entry he => hsets entry (hperm.mem_iff.2 he), ?_⟩
  intro path
  have hget : (insertAll cmp entries').get? path = (insertAll cmp entries).get? path := by
    refine Option.ext fun a => ?_
    rw [get?_insertAll_eq_some_iff_mem hpaths', get?_insertAll_eq_some_iff_mem hpaths]
    simp only [hperm.mem_iff]
  rwa [get?_eq_valueAt?, get?_eq_valueAt?, comparer_insertAll, comparer_insertAll] at hget

end Graph

end Parley
