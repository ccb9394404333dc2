import Parley.Token

/-!
# The graph of categories

Entries are stored under paths of tokens in a tree whose edges are tokens. Edges for words and
wildcards are found by the keys of their texts and listed in the order of these keys; edges for sets
are tried and listed in the order in which they were added. The first entry of a path stays: a later
one for the same path is refused and the first one handed back.

Main results:

* `Node.sizeOf_lt_of_child?`, `Node.sizeOf_lt_of_mem_sets` — what an edge leads to is smaller;
* `Node.lookup_updateWord`, `Node.find?_updateSet` — a change behind one edge is seen there and
  nowhere else.
-/

namespace Parley

/-- A place in the graph: the entry of the path that ends here, if there is one, the edges for words
and wildcards, each with its key and with the token that it was added for, and the edges for sets.
Both kinds of edges are in the order in which they were added. -/
inductive Node (α : Type) where
  | mk (value? : Option α) (words : List (String × Token × Node α)) (sets : List (String × Node α))

namespace Node

variable {α : Type}

/-- The entry of the path that ends at a node. -/
def value? : Node α → Option α
  | .mk value? _ _ => value?

/-- The edges for words and wildcards. -/
def words : Node α → List (String × Token × Node α)
  | .mk _ words _ => words

/-- The edges for sets. -/
def sets : Node α → List (String × Node α)
  | .mk _ _ sets => sets

/-- A node without an entry and without edges. -/
def empty : Node α := .mk none [] []

/-- Whether a node has neither an entry nor an edge. -/
def isEmpty (n : Node α) : Bool :=
  n.value?.isNone && n.words.isEmpty && n.sets.isEmpty

/-! ## Going along edges -/

/-- The token and the node at the edge for a word or wildcard. -/
def child? (cmp : Comparer) (n : Node α) (text : String) : Option (Token × Node α) :=
  n.words.lookup (cmp.key text)

/-- The node at the edge for a set. -/
def setChild? (cmp : Comparer) (n : Node α) (name : String) : Option (Node α) :=
  (n.sets.find? fun edge => cmp.equals edge.1 name).map Prod.snd

/-- The node at the edge for a token. -/
def step? (cmp : Comparer) (n : Node α) (t : Token) : Option (Node α) :=
  if t.isSet then n.setChild? cmp t.text else (n.child? cmp t.text).map Prod.snd

/-- The node at the end of a path. -/
def find? (cmp : Comparer) : Node α → List Token → Option (Node α)
  | n, [] => some n
  | n, t :: path => (n.step? cmp t).bind fun child => child.find? cmp path

/-- What a word edge leads to is smaller. -/
theorem sizeOf_lt_of_child? {cmp : Comparer} {n child : Node α} {text : String} {t : Token}
    (h : n.child? cmp text = some (t, child)) : sizeOf child < sizeOf n := by
  obtain ⟨value?, ws, ss⟩ := n
  have hmem := List.sizeOf_lt_of_mem (Entries.mem_of_lookup_eq_some h)
  simp only [words, Prod.mk.sizeOf_spec] at hmem
  simp only [Node.mk.sizeOf_spec]
  omega

/-- What a set edge leads to is smaller. -/
theorem sizeOf_lt_of_mem_sets {n child : Node α} {name : String} (h : (name, child) ∈ n.sets) :
    sizeOf child < sizeOf n := by
  obtain ⟨value?, ws, ss⟩ := n
  have hmem := List.sizeOf_lt_of_mem h
  simp only [sets, Prod.mk.sizeOf_spec] at hmem
  simp only [Node.mk.sizeOf_spec]
  omega

/-! ## Adding edges -/

/-- Changes the node behind a word edge, which is added if it is not there. The token that the edge
was first added for stays. -/
def updateWord (key : String) (t : Token) (f : Node α → Node α) :
    List (String × Token × Node α) → List (String × Token × Node α)
  | [] => [(key, t, f empty)]
  | (k, u, n) :: rest =>
    if k = key then (k, u, f n) :: rest else (k, u, n) :: updateWord key t f rest

/-- Changes the node behind a set edge, which is added at the end if it is not there. -/
def updateSet (cmp : Comparer) (name : String) (f : Node α → Node α) :
    List (String × Node α) → List (String × Node α)
  | [] => [(name, f empty)]
  | (m, n) :: rest =>
    if cmp.equals m name then (m, f n) :: rest else (m, n) :: updateSet cmp name f rest

/-- Changes the node at the end of a path, after adding what is missing of the path. -/
def update (cmp : Comparer) (f : Node α → Node α) : List Token → Node α → Node α
  | [], n => f n
  | t :: path, .mk value? ws ss =>
    if t.isSet then .mk value? ws (updateSet cmp t.text (update cmp f path) ss)
    else .mk value? (updateWord (cmp.key t.text) t (update cmp f path) ws) ss

/-- Gives a node an entry, unless it has one. -/
def setEntry (a : α) : Node α → Node α
  | .mk (some b) ws ss => .mk (some b) ws ss
  | .mk none ws ss => .mk (some a) ws ss

/-- A change behind a word edge is seen at that edge and at no other. -/
theorem lookup_updateWord (key : String) (t : Token) (f : Node α → Node α)
    (edges : List (String × Token × Node α)) (other : String) :
    (updateWord key t f edges).lookup other =
      if other = key then
        some (match edges.lookup key with
          | some (u, n) => (u, f n)
          | none => (t, f empty))
      else edges.lookup other := by
  induction edges with
  | nil => simp [updateWord, Entries.lookup_cons_eq]
  | cons edge rest ih =>
    obtain ⟨k, u, n⟩ := edge
    by_cases hk : k = key
    · simp only [updateWord, hk, if_true, Entries.lookup_cons_eq]
      by_cases h : other = key <;> simp [h]
    · have hne : key ≠ k := Ne.symm hk
      simp only [updateWord, hk, if_false, Entries.lookup_cons_eq, hne, ih]
      by_cases h : other = k <;> simp [h, hk]

/-- A change behind a set edge is seen under every spelling of its name, and under no other name. -/
theorem find?_updateSet (cmp : Comparer) (name : String) (f : Node α → Node α)
    (edges : List (String × Node α)) (other : String) :
    ((updateSet cmp name f edges).find? fun edge => cmp.equals edge.1 other).map Prod.snd =
      if cmp.equals name other then
        some (match edges.find? fun edge => cmp.equals edge.1 name with
          | some (_, n) => f n
          | none => f empty)
      else (edges.find? fun edge => cmp.equals edge.1 other).map Prod.snd := by
  induction edges with
  | nil => by_cases h : cmp.equals name other <;> simp [updateSet, h]
  | cons edge rest ih =>
    obtain ⟨m, n⟩ := edge
    by_cases hm : cmp.equals m name = true
    · have hsame : cmp.equals m other = cmp.equals name other := by
        rw [Comparer.equals_iff_key_eq] at hm
        simp [Comparer.equals, hm]
      by_cases h : cmp.equals name other <;> simp [updateSet, hm, hsame, h]
    · by_cases h : cmp.equals m other = true
      · have hne : cmp.equals name other = false := by
          cases hname : cmp.equals name other with
          | false => rfl
          | true => exact absurd (Comparer.equals_trans h (cmp.equals_comm name other ▸ hname)) hm
        simp [updateSet, hm, h, hne]
      · simp [updateSet, hm, h, ih]

/-! ## Listing -/

/-- Things with keys, in the order of their keys. -/
def inKeyOrder {β : Type} (entries : List (String × β)) : List (String × β) :=
  entries.mergeSort fun a b => decide (a.1 ≤ b.1)

/-- The tokens of the edges for words and wildcards, in the order of their keys. -/
def children (n : Node α) : List Token :=
  (inKeyOrder n.words).map fun edge => edge.2.1

mutual

/-- The number of entries at and below a node. -/
def size : Node α → Nat
  | .mk value? ws ss => value?.toList.length + sizeWords ws + sizeSets ss

/-- The number of entries below word edges. -/
def sizeWords : List (String × Token × Node α) → Nat
  | [] => 0
  | (_, _, n) :: rest => n.size + sizeWords rest

/-- The number of entries below set edges. -/
def sizeSets : List (String × Node α) → Nat
  | [] => 0
  | (_, n) :: rest => n.size + sizeSets rest

end

/-- A path continued by one token. -/
def extendPath (path label : String) : String :=
  if path.isEmpty then label else path ++ " " ++ label

mutual

/-- The entries at and below a node, each with its path as text: first the node's own, then those
below its word edges, then those below its set edges. `path` leads to the node. -/
def listing (path : String) : Node α → List (String × α)
  | .mk value? ws ss =>
    value?.toList.map (fun a => (path, a)) ++
      (inKeyOrder (listingWords path ws)).flatMap Prod.snd ++ listingSets path ss

/-- The entries below each of the word edges, with the key of the edge. -/
def listingWords (path : String) :
    List (String × Token × Node α) → List (String × List (String × α))
  | [] => []
  | (key, t, n) :: rest =>
    (key, n.listing (extendPath path t.display)) :: listingWords path rest

/-- The entries below set edges. -/
def listingSets (path : String) : List (String × Node α) → List (String × α)
  | [] => []
  | (name, n) :: rest =>
    n.listing (extendPath path (Token.setLabel name)) ++ listingSets path rest

end

mutual

/-- The tokens of all word edges at and below a node, in no particular order. -/
def tokens : Node α → List Token
  | .mk _ ws ss => tokensWords ws ++ tokensSets ss

/-- The tokens of word edges and of all below them. -/
def tokensWords : List (String × Token × Node α) → List Token
  | [] => []
  | (_, t, n) :: rest => t :: (n.tokens ++ tokensWords rest)

/-- The tokens of all word edges below set edges. -/
def tokensSets : List (String × Node α) → List Token
  | [] => []
  | (_, n) :: rest => n.tokens ++ tokensSets rest

end

end Node

/-- Entries under paths, whose words and names are compared by a comparer. -/
structure Graph (α : Type) where
  comparer : Comparer
  root : Node α := .empty

namespace Graph

variable {α : Type}

/-- A graph without entries. -/
def empty (cmp : Comparer) : Graph α := { comparer := cmp }

/-- The node at the end of a path. -/
def find? (g : Graph α) (path : List Token) : Option (Node α) :=
  g.root.find? g.comparer path

/-- The entry of a path. -/
def get? (g : Graph α) (path : List Token) : Option α :=
  (g.find? path).bind Node.value?

/-- Adds the nodes of a path. -/
def touch (g : Graph α) (path : List Token) : Graph α :=
  { g with root := g.root.update g.comparer id path }

/-- Adds an entry under a path, unless there is one; the entry that was there is handed back. -/
def insert (g : Graph α) (path : List Token) (a : α) : Graph α × Option α :=
  ({ g with root := g.root.update g.comparer (Node.setEntry a) path }, g.get? path)

/-- The number of entries. -/
def size (g : Graph α) : Nat := g.root.size

/-- The entries with their paths as text. -/
def listing (g : Graph α) : List (String × α) := g.root.listing ""

end Graph

end Parley
