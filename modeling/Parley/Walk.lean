import Parley.Graph

/-!
# Walking through a graph

The entries of a graph are handed out one by one, as they are asked for. A walk keeps a stack of the
nodes that it has still to visit, each with its path as text. To visit a node is to take it from the
stack, to put the nodes behind its edges there, the last ones first, and to hand out its entry if it
has one.

Main results:

* `Node.pushEdges_eq` — the nodes behind edges come off the stack in the order of the edges;
* `Walk.weight_lt_of_next?` — what is left of a walk is smaller, so that a walk ends.
-/

namespace Parley

variable {α β : Type}

/-! ## Totals -/

/-- What the members of a list come to together. -/
def total (f : β → Nat) : List β → Nat
  | [] => 0
  | b :: l => f b + total f l

theorem total_append (f : β → Nat) (l more : List β) :
    total f (l ++ more) = total f l + total f more := by
  induction l with
  | nil => rw [List.nil_append, total, Nat.zero_add]
  | cons b l ih => rw [List.cons_append, total, total, ih, Nat.add_assoc]

theorem total_map {γ : Type} (f : β → Nat) (g : γ → β) (l : List γ) :
    total f (l.map g) = total (fun c => f (g c)) l := by
  induction l with
  | nil => rfl
  | cons c l ih => rw [List.map_cons, total, total, ih]

/-- The order does not matter to a total. -/
theorem total_perm (f : β → Nat) {l l' : List β} (h : l.Perm l') : total f l = total f l' := by
  induction h with
  | nil => rfl
  | cons b _ ih => rw [total, total, ih]
  | swap b c l => rw [total, total, total, total, Nat.add_left_comm]
  | trans _ _ ih ih' => rw [ih, ih']

theorem total_le_sizeOf [SizeOf β] {f : β → Nat} (hf : ∀ b, f b ≤ sizeOf b) (l : List β) :
    total f l ≤ sizeOf l := by
  induction l with
  | nil => exact Nat.zero_le _
  | cons b l ih =>
    have hb := hf b
    rw [total, List.cons.sizeOf_spec]
    omega

/-! ## Edges -/

namespace Node

/-- The nodes behind the edges of a node with their paths: those behind words and wildcards, in the
order of their keys, and those behind sets. -/
def branches (path : String) (n : Node α) : List (String × Node α) :=
  ((inKeyOrder n.words).map fun edge => (extendPath path edge.2.1.display, edge.2.2)) ++
    n.sets.map fun edge => (extendPath path (Token.setLabel edge.1), edge.2)

/-- Puts the nodes behind the edges of a node on a stack, from the last one to the first. -/
def pushEdges (path : String) (n : Node α) (stack : List (String × Node α)) :
    List (String × Node α) :=
  let stack := n.sets.reverse.foldl (fun stack edge =>
    (extendPath path (Token.setLabel edge.1), edge.2) :: stack) stack
  (inKeyOrder n.words).reverse.foldl (fun stack edge =>
    (extendPath path edge.2.1.display, edge.2.2) :: stack) stack

/-- The nodes behind edges come off a stack in the order of the edges. -/
theorem pushEdges_eq (path : String) (n : Node α) (stack : List (String × Node α)) :
    n.pushEdges path stack = n.branches path ++ stack := by
  have hpush : ∀ {β : Type} (f : β → String × Node α) (edges : List β)
      (stack : List (String × Node α)),
      edges.reverse.foldl (fun stack edge => f edge :: stack) stack = edges.map f ++ stack := by
    intro β f edges stack
    induction edges with
    | nil => rfl
    | cons edge edges ih => rw [List.reverse_cons, List.foldl_append, ih]; rfl
  rw [pushEdges, hpush, hpush, branches, List.append_assoc]

/-- The nodes behind the edges of a node weigh less than the node. -/
theorem total_branches_lt (path : String) (n : Node α) :
    total (fun branch => sizeOf branch.2) (n.branches path) < sizeOf n := by
  obtain ⟨value?, ws, ss⟩ := n
  -- the order of the keys does not matter
  have hordered := total_perm (fun edge : String × Token × Node α => sizeOf edge.2.2)
    (List.mergeSort_perm ws fun a b => decide (a.1 ≤ b.1))
  have hwords : total (fun edge => sizeOf edge.2.2) ws ≤ sizeOf ws :=
    total_le_sizeOf (fun edge => by
      obtain ⟨key, t, child⟩ := edge
      simp only [Prod.mk.sizeOf_spec]
      omega) ws
  have hsets : total (fun edge => sizeOf edge.2) ss ≤ sizeOf ss :=
    total_le_sizeOf (fun edge => by
      obtain ⟨name, child⟩ := edge
      simp only [Prod.mk.sizeOf_spec]
      omega) ss
  simp only [branches, words, sets, inKeyOrder, total_append, total_map, Node.mk.sizeOf_spec]
  omega

end Node

/-! ## Walks -/

/-- A walk on its way: the nodes that are still to be visited, each with its path as text. The next
one comes first. -/
structure Walk (α : Type) where
  stack : List (String × Node α)

namespace Walk

/-- The nodes that are still to be visited, weighed together. -/
noncomputable def weight (walk : Walk α) : Nat := total (fun entry => sizeOf entry.2) walk.stack

/-- To visit a node makes a walk smaller. -/
theorem weight_pushEdges_lt (path : String) (n : Node α) (rest : List (String × Node α)) :
    (⟨n.pushEdges path rest⟩ : Walk α).weight < (⟨(path, n) :: rest⟩ : Walk α).weight := by
  have hbranches := n.total_branches_lt path
  simp only [weight, Node.pushEdges_eq, total_append, total]
  omega

/-- The next entry with its path, and what is left of the walk. Nodes without an entry are passed
by. -/
def next? : Walk α → Option ((String × α) × Walk α)
  | ⟨[]⟩ => none
  | ⟨(path, n) :: rest⟩ =>
    match n.value? with
    | some a => some ((path, a), ⟨n.pushEdges path rest⟩)
    | none => next? ⟨n.pushEdges path rest⟩
termination_by walk => walk.weight
decreasing_by exact weight_pushEdges_lt path n rest

/-- What is left of a walk is smaller. -/
theorem weight_lt_of_next? {walk left : Walk α} {entry : String × α}
    (h : walk.next? = some (entry, left)) : left.weight < walk.weight := by
  induction hweight : walk.weight using Nat.strongRecOn generalizing walk with
  | _ weight ih =>
    subst hweight
    obtain ⟨_ | ⟨⟨path, n⟩, rest⟩⟩ := walk
    · simp [next?] at h
    · have hless := weight_pushEdges_lt path n rest
      rw [next?] at h
      split at h
      · obtain ⟨-, rfl⟩ := Prod.mk.inj (Option.some.inj h)
        exact hless
      · exact Nat.lt_trans (ih _ hless h rfl) hless

/-- All that a walk has still to hand out, in its order. -/
def toList (walk : Walk α) : List (String × α) :=
  match _h : walk.next? with
  | none => []
  | some (entry, left) => entry :: left.toList
termination_by walk.weight
decreasing_by exact weight_lt_of_next? _h

end Walk

/-- The walk through the entries at and below a node. -/
def Node.walk (n : Node α) : Walk α := ⟨[("", n)]⟩

/-- The walk through the entries of a graph. -/
def Graph.walk (g : Graph α) : Walk α := g.root.walk

end Parley
