import Parley.Proofs.Regex.Guarding

/-!
# The first alternative that matches

What has been tried of one alternative has no bearing on another one if the two have no state in
common. A match of such alternatives is then the match of the first of them that has one at the
place. Groups with different numbers have no state in common, because every state inside a group
ends with its being closed.

Main results:

* `matchAt_alt` — two alternatives without a common state;
* `matchAt_altAll` — any number of groups with different numbers.
-/

namespace Parley.Regex

/-! ## Depth -/

/-- How deep the parts of an expression are nested. -/
def depth : Regex → Nat
  | .empty => 0
  | .chars _ => 0
  | .look _ => 0
  | .cat a b => max a.depth b.depth + 1
  | .alt a b => max a.depth b.depth + 1
  | .group _ r => r.depth + 1
  | .repeated r _ _ _ => r.depth + 1

/-- What is to be matched next in a state is no deeper than the expression. -/
theorem depth_le_of_mem_states {r x : Regex} {k rest : List Task}
    (h : .run x :: rest ∈ r.states k) : x.depth ≤ r.depth := by
  induction r generalizing k with
  | cat a b iha ihb =>
    simp only [states, List.mem_cons, List.mem_append, List.cons.injEq, Task.run.injEq] at h
    rcases h with ⟨rfl, -⟩ | h | h
    · exact Nat.le_refl _
    · exact (iha h).trans (Nat.le_succ_of_le (Nat.le_max_left _ _))
    · exact (ihb h).trans (Nat.le_succ_of_le (Nat.le_max_right _ _))
  | alt a b iha ihb =>
    simp only [states, List.mem_cons, List.mem_append, List.cons.injEq, Task.run.injEq] at h
    rcases h with ⟨rfl, -⟩ | h | h
    · exact Nat.le_refl _
    · exact (iha h).trans (Nat.le_succ_of_le (Nat.le_max_left _ _))
    · exact (ihb h).trans (Nat.le_succ_of_le (Nat.le_max_right _ _))
  | group g r ih =>
    simp only [states, List.mem_cons, List.mem_append, List.cons.injEq, Task.run.injEq] at h
    rcases h with ⟨rfl, -⟩ | h | h
    · exact Nat.le_refl _
    · exact (ih h).trans (Nat.le_succ _)
    · simp at h
  | repeated r min max? greedy ih =>
    obtain ⟨t, ht, h⟩ := List.mem_flatMap.1 h
    rcases List.mem_cons.1 h with h | h
    -- a round is as deep as the repetition that it is a round of
    · rcases eq_of_mem_rounds ht with ⟨-, rfl⟩ | ⟨n, m?, rfl, -⟩
      · simp at h
      · obtain ⟨hrun, -⟩ := List.cons.inj h
        exact Task.run.inj hrun ▸ Nat.le_refl _
    · exact (ih h).trans (Nat.le_succ _)
  | _ =>
    simp only [states, List.mem_singleton, List.cons.injEq, Task.run.injEq] at h
    exact h.1 ▸ Nat.le_refl _

/-! ## Two alternatives -/

/-- Whether two expressions have no state in common. -/
def Apart (a b : Regex) : Prop := List.Disjoint (a.states []) (b.states [])

/-- What has been tried outside of an expression has no bearing on it, and nothing else outside of
it is tried for it. -/
theorem matchOf_explore {r : Regex} {p : Place} {fuel : Nat} {tried : Tried}
    (hfuel : (reachable r p).card < fuel) (htried : ∀ e ∈ tried, e ∉ reachable r p) :
    matchOf p (explore true fuel [.run r] tried p []) = matchAt r p ∧
      ∀ t, explore true fuel [.run r] tried p [] = .error t →
        ∀ e ∈ t, e ∈ tried ∨ e ∈ reachable r p := by
  have hleft : left (reachable r p) tried = reachable r p := by
    refine Finset.sdiff_eq_self_of_disjoint (Finset.disjoint_right.2 fun e he => ?_)
    exact htried e (List.mem_toFinset.1 he)
  have hagree : Agree (reachable r p) tried [] := fun e he =>
    ⟨fun hmem => absurd he (htried e hmem), fun hmem => absurd hmem List.not_mem_nil⟩
  have hsame := @same_explore _ tried [] p (closed_reachable r p) fuel
    ((p.rest.length + 1) * (r.weight + 2)) [.run r] p [] (.refl p)
    (Or.inr (start_mem_reachable r p)) hagree (by rwa [hleft])
    (by rw [hleft]; exact card_reachable_lt r p)
  rw [matchAt_eq]
  generalize explore true fuel [.run r] tried p [] = x at hsame ⊢
  generalize explore true ((p.rest.length + 1) * (r.weight + 2)) [.run r] [] p [] = y at hsame ⊢
  cases hsame with
  | found o => exact ⟨rfl, fun t ht => by cases ht⟩
  | failed _ grows _ => exact ⟨rfl, fun t ht e he => grows.new e (Except.error.inj ht ▸ he)⟩

/-- **Of two alternatives without a common state, the first is matched if it can be**, and otherwise
the second. -/
theorem matchAt_alt {a b : Regex} (h : Apart a b) (p : Place) :
    matchAt (.alt a b) p = (matchAt a p).or (matchAt b p) := by
  have hfuel : ∃ fuel, (p.rest.length + 1) * ((Regex.alt a b).weight + 2) = fuel + 1 ∧
      (reachable a p).card < fuel ∧ (reachable b p).card < fuel := by
    have ha := card_reachable_lt a p
    have hb := card_reachable_lt b p
    have hsplit : (p.rest.length + 1) * ((Regex.alt a b).weight + 2) =
        (p.rest.length + 1) * (a.weight + 2) + (p.rest.length + 1) * (b.weight + 1) := by
      rw [← Nat.mul_add, weight]
      congr 1
      omega
    have hsplit' : (p.rest.length + 1) * ((Regex.alt a b).weight + 2) =
        (p.rest.length + 1) * (b.weight + 2) + (p.rest.length + 1) * (a.weight + 1) := by
      rw [← Nat.mul_add, weight]
      congr 1
      omega
    have hposa : 0 < (p.rest.length + 1) * (a.weight + 1) := Nat.mul_pos (by omega) (by omega)
    have hposb : 0 < (p.rest.length + 1) * (b.weight + 1) := Nat.mul_pos (by omega) (by omega)
    exact ⟨(p.rest.length + 1) * ((Regex.alt a b).weight + 2) - 1, by omega, by omega, by omega⟩
  obtain ⟨fuel, hfuel, hfuela, hfuelb⟩ := hfuel
  -- the alternatives are deeper than their parts, so that they are no state of them
  have hnota : ∀ e ∈ [(p.index, [Task.run (.alt a b)])], e ∉ reachable a p := by
    intro e he hmem
    obtain rfl := List.mem_singleton.1 he
    have hdepth := depth_le_of_mem_states (mem_reachable.1 hmem).2
    rw [depth] at hdepth
    omega
  have hnotb : ∀ e ∈ [(p.index, [Task.run (.alt a b)])], e ∉ reachable b p := by
    intro e he hmem
    obtain rfl := List.mem_singleton.1 he
    have hdepth := depth_le_of_mem_states (mem_reachable.1 hmem).2
    rw [depth] at hdepth
    omega
  obtain ⟨hfirst, htried⟩ := matchOf_explore hfuela hnota
  rw [matchAt_eq (.alt a b), hfuel, explore_cons, moves, tryMoves_pair, triedWith, if_pos rfl,
    if_neg (by simp)]
  dsimp only [List.cons_append, List.nil_append]
  generalize explore true fuel [.run a] [(p.index, [.run (.alt a b)])] p [] = x at hfirst htried ⊢
  cases x with
  | ok o =>
    rw [← hfirst]
    rfl
  | error t =>
    have hnone : matchAt a p = none := hfirst.symm
    -- what the first alternative has left tried is no state of the second
    have hbehind : ∀ e ∈ t, e ∉ reachable b p := by
      intro e he hmem
      rcases htried t rfl e he with he | he
      · exact hnotb e he hmem
      · exact h (mem_reachable.1 he).2 (mem_reachable.1 hmem).2
    rw [hnone, Option.none_or]
    exact (matchOf_explore hfuelb hbehind).1

/-! ## Groups as alternatives -/

/-- Whether a state is that of a group with a given number: it is the group itself, or the group is
closed in the end. -/
def EndsIn (g : Nat) (ts : List Task) : Prop :=
  ts.getLast? = some (.close g) ∨ ∃ body, ts = [.run (.group g body)]

theorem endsIn_of_mem_states {g : Nat} {body : Regex} {ts : List Task}
    (h : ts ∈ (Regex.group g body).states []) : EndsIn g ts := by
  simp only [states, List.mem_cons, List.mem_append, List.not_mem_nil, or_false] at h
  rcases h with rfl | h | rfl
  · exact Or.inr ⟨body, rfl⟩
  · obtain ⟨t, us, rfl⟩ := exists_append_of_mem_states h
    exact Or.inl (by rw [← List.cons_append, List.getLast?_concat])
  · exact Or.inl rfl

theorem EndsIn.eq {g g' : Nat} {ts : List Task} (h : EndsIn g ts) (h' : EndsIn g' ts) : g = g' := by
  rcases h with h | ⟨body, rfl⟩
  · rcases h' with h' | ⟨body', rfl⟩
    · exact Task.close.inj (Option.some.inj (h.symm.trans h'))
    · cases h
  · rcases h' with h' | ⟨body', h'⟩
    · cases h'
    · exact (Regex.group.inj (Task.run.inj (List.cons.inj h').1)).1

/-- Groups, by their numbers and what is in them. -/
def groupsOf (branches : List (Nat × Regex)) : List Regex :=
  branches.map fun branch => .group branch.1 branch.2

/-- A state of groups as alternatives is that of some of the alternatives, or it is in one of
them. -/
theorem endsIn_of_mem_states_altAll {branches : List (Nat × Regex)} (hne : branches ≠ [])
    {ts : List Task} (h : ts ∈ (altAll (groupsOf branches)).states []) :
    (∃ a b, ts = [.run (.alt a b)]) ∨ ∃ branch ∈ branches, EndsIn branch.1 ts := by
  induction branches with
  | nil => exact absurd rfl hne
  | cons branch branches ih =>
    cases branches with
    | nil => exact Or.inr ⟨branch, List.mem_cons_self, endsIn_of_mem_states h⟩
    | cons next branches =>
      have h : ts ∈ (Regex.alt (.group branch.1 branch.2)
          (altAll (groupsOf (next :: branches)))).states [] := h
      rw [states, List.mem_cons, List.mem_append] at h
      rcases h with rfl | h | h
      · exact Or.inl ⟨_, _, rfl⟩
      · exact Or.inr ⟨branch, List.mem_cons_self, endsIn_of_mem_states h⟩
      · refine (ih (List.cons_ne_nil _ _) h).imp_right ?_
        rintro ⟨other, hother, hends⟩
        exact ⟨other, List.mem_cons_of_mem _ hother, hends⟩

/-- **Groups with different numbers as alternatives are matched as the first of them that can be
matched.** -/
theorem matchAt_altAll {branches : List (Nat × Regex)} (hne : branches ≠ [])
    (hnumbers : (branches.map Prod.fst).Nodup) (p : Place) :
    matchAt (altAll (groupsOf branches)) p =
      branches.findSome? fun branch => matchAt (.group branch.1 branch.2) p := by
  induction branches with
  | nil => exact absurd rfl hne
  | cons branch branches ih =>
    cases branches with
    | nil =>
      rw [List.findSome?_cons, List.findSome?_nil]
      show matchAt (.group branch.1 branch.2) p = _
      cases matchAt (.group branch.1 branch.2) p <;> rfl
    | cons next branches =>
      rw [List.map_cons, List.nodup_cons] at hnumbers
      -- states of different branches end in different groups
      have hapart : Apart (.group branch.1 branch.2) (altAll (groupsOf (next :: branches))) := by
        intro ts hts hts'
        have hends := endsIn_of_mem_states hts
        rcases endsIn_of_mem_states_altAll (List.cons_ne_nil _ _) hts' with
          ⟨a, b, rfl⟩ | ⟨other, hother, hends'⟩
        · rcases hends with h | ⟨body, h⟩ <;> cases h
        · refine hnumbers.1 ?_
          rw [hends.eq hends']
          exact List.mem_map_of_mem hother
      rw [List.findSome?_cons]
      show matchAt (.alt (.group branch.1 branch.2) (altAll (groupsOf (next :: branches)))) p = _
      rw [matchAt_alt hapart, ih (List.cons_ne_nil _ _) hnumbers.2]
      cases matchAt (.group branch.1 branch.2) p <;> rfl

end Parley.Regex
