import Mathlib.Data.Finset.Prod
import Mathlib.Order.Interval.Finset.Nat
import Parley.Proofs.Regex.Ways

/-!
# The states of an expression

The lists of tasks that the matcher takes up on the way through an expression are the states of the
expression. There are finitely many of them, no more than its weight, and at every place of the text
they lead to each other or to the end. So the matcher can take up only finitely many things from a
place on, which is what its fuel is measured by.

Main results:

* `mem_states_of_mem_moves` — every move from a state leads to a state, or behind the expression;
* `closed_reachable` — what is taken up from a place on stays among the states at places behind it;
* `card_reachable_lt` — and they are fewer than the fuel of a match.
-/

namespace Parley.Regex

/-! ## Moves that test the text -/

section Tests

variable {place : Place} {notes : Notes} {m : Move}

/-- A character is taken if it is in the set. -/
theorem exists_of_mem_moves_chars {s : CharSet} (h : m ∈ moves (.run (.chars s)) place notes) :
    ∃ c rest, place.rest = c :: rest ∧ s.mem c = true ∧
      m = ⟨[], { before := some c, rest, index := place.index + 1 }, notes⟩ := by
  rw [moves] at h
  split at h
  · cases h
  · next c rest hrest =>
    split at h
    · next hc => exact ⟨c, rest, hrest, hc, List.mem_singleton.1 h⟩
    · cases h

/-- A test of the place takes none. -/
theorem eq_of_mem_moves_look {l : Look} (h : m ∈ moves (.run (.look l)) place notes) :
    m = ⟨[], place, notes⟩ := by
  rw [moves] at h
  split at h
  · exact List.mem_singleton.1 h
  · cases h

end Tests

/-! ## Rounds of a repetition -/

/-- The tasks that a repetition comes down to round by round. -/
def rounds (r : Regex) (greedy : Bool) : Nat → Option Nat → List Task
  | 0, none => [.run (.repeated r 0 none greedy), .again r greedy]
  | 0, some 0 => [.run (.repeated r 0 (some 0) greedy)]
  | 0, some (m + 1) => .run (.repeated r 0 (some (m + 1)) greedy) :: rounds r greedy 0 (some m)
  | 1, none => [.run (.repeated r 1 none greedy), .again r greedy]
  | n + 1, max? =>
    .run (.repeated r (n + 1) max? greedy) :: rounds r greedy n (max?.map (· - 1))

section Rounds

variable {r : Regex} {greedy : Bool} {min : Nat} {max? : Option Nat}

/-- There are at most as many rounds as the larger bound says, and one. -/
theorem length_rounds_le : (rounds r greedy min max?).length ≤
    max min (max?.getD (min + 1)) + 1 := by
  induction min, max? using rounds.induct with
  | case1 => simp [rounds]
  | case2 => simp [rounds]
  | case3 m ih =>
    rw [rounds, List.length_cons]
    simp only [Option.getD_some] at ih ⊢
    omega
  | case4 => simp [rounds]
  -- a round that must be made counts both bounds down
  | case5 n max? hne ih =>
    rw [rounds, List.length_cons]
    · cases max? with
      | none =>
        simp only [Option.map_none, Option.getD_none] at ih ⊢
        omega
      | some m =>
        simp only [Option.map_some, Option.getD_some] at ih ⊢
        omega
    · exact hne

/-- The repetition itself is one of the states. -/
theorem head_mem_rounds : Task.run (.repeated r min max? greedy) ∈ rounds r greedy min max? := by
  induction min, max? using rounds.induct with
  | case5 n max? hne _ =>
    rw [rounds]
    · exact List.mem_cons_self
    · exact hne
  | _ => rw [rounds]; exact List.mem_cons_self

/-- A round is the repetition with other bounds, and no greater ones, or it goes on without
bounds. -/
theorem eq_of_mem_rounds {t : Task} (h : t ∈ rounds r greedy min max?) :
    max? = none ∧ t = .again r greedy ∨
      ∃ n m?, t = .run (.repeated r n m? greedy) ∧ ∀ m ∈ max?, ∃ k ≤ m, m? = some k := by
  induction min, max? using rounds.induct with
  | case2 =>
    rw [rounds, List.mem_singleton] at h
    exact Or.inr ⟨_, _, h, fun m hm => ⟨m, Nat.le_refl m, hm⟩⟩
  | case3 k ih =>
    rw [rounds, List.mem_cons] at h
    rcases h with rfl | h
    · exact Or.inr ⟨_, _, rfl, fun m hm => ⟨m, Nat.le_refl m, hm⟩⟩
    · refine (ih h).imp (fun hagain => absurd hagain.1 (Option.some_ne_none k)) ?_
      rintro ⟨n, m?, ht, hle⟩
      refine ⟨n, m?, ht, fun m hm => ?_⟩
      obtain ⟨l, hl, hm?⟩ := hle k rfl
      obtain rfl := Option.some.inj hm
      exact ⟨l, Nat.le_succ_of_le hl, hm?⟩
  | case5 n max? hne ih =>
    rw [rounds, List.mem_cons] at h
    · rcases h with rfl | h
      · exact Or.inr ⟨_, _, rfl, fun m hm => ⟨m, Nat.le_refl m, hm⟩⟩
      · refine (ih h).imp (fun hagain => ⟨Option.map_eq_none_iff.1 hagain.1, hagain.2⟩) ?_
        rintro ⟨n, m?, ht, hle⟩
        refine ⟨n, m?, ht, fun m hm => ?_⟩
        obtain ⟨l, hl, hm?⟩ := hle (m - 1) (Option.mem_map_of_mem _ hm)
        exact ⟨l, by omega, hm?⟩
    · exact hne
  | _ =>
    -- the last round but one, and going on without bounds
    rw [rounds, List.mem_cons, List.mem_singleton] at h
    rcases h with rfl | rfl
    · exact Or.inr ⟨_, _, rfl, fun m hm => by cases hm⟩
    · exact Or.inl ⟨rfl, rfl⟩

/-- From a round a match goes on with the expression and another round, or leaves. -/
theorem moves_of_mem_rounds {t : Task} (h : t ∈ rounds r greedy min max?) {place : Place}
    {notes : Notes} {m : Move} (hm : m ∈ moves t place notes) :
    m.tasks = [] ∨ ∃ t' ∈ rounds r greedy min max?, m.tasks = [.run r, t'] := by
  have hagain : ∀ {l : List Task}, .again r greedy ∈ l → m ∈ moves (.again r greedy) place notes →
      m.tasks = [] ∨ ∃ t' ∈ l, m.tasks = [.run r, t'] := by
    intro l hl hm
    cases greedy <;> simp only [moves, List.mem_cons, List.not_mem_nil, or_false] at hm <;>
      rcases hm with rfl | rfl
    · exact Or.inl rfl
    · exact Or.inr ⟨_, hl, rfl⟩
    · exact Or.inr ⟨_, hl, rfl⟩
    · exact Or.inl rfl
  -- the cases are those of the rounds: no bounds are left, or one round less
  induction min, max? using rounds.induct with
  | case1 =>
    have hmem : Task.again r greedy ∈ rounds r greedy 0 none := by simp [rounds]
    simp only [rounds, List.mem_cons, List.not_mem_nil, or_false] at h
    rcases h with rfl | rfl
    · refine hagain hmem ?_
      cases greedy <;> exact hm
    · exact hagain hmem hm
  | case2 =>
    simp only [rounds, List.mem_cons, List.not_mem_nil, or_false] at h
    subst h
    exact Or.inl (congrArg Move.tasks (List.mem_singleton.1 hm))
  | case3 k ih =>
    rw [rounds] at h ⊢
    rcases List.mem_cons.1 h with rfl | h
    -- the first of the rounds goes on with the second one or ends
    · have hhead : Task.run (.repeated r 0 (some k) greedy) ∈ rounds r greedy 0 (some k) :=
        head_mem_rounds
      cases greedy <;> simp only [moves, List.mem_cons, List.not_mem_nil, or_false] at hm <;>
        rcases hm with rfl | rfl
      · exact Or.inl rfl
      · exact Or.inr ⟨_, List.mem_cons_of_mem _ hhead, rfl⟩
      · exact Or.inr ⟨_, List.mem_cons_of_mem _ hhead, rfl⟩
      · exact Or.inl rfl
    · rcases ih h with hnil | ⟨t', ht', htasks⟩
      · exact Or.inl hnil
      · exact Or.inr ⟨t', List.mem_cons_of_mem _ ht', htasks⟩
  | case4 =>
    have hmem : Task.again r greedy ∈ rounds r greedy 1 none := by simp [rounds]
    simp only [rounds, List.mem_cons, List.not_mem_nil, or_false] at h
    rcases h with rfl | rfl
    · rw [moves, List.mem_singleton] at hm
      exact Or.inr ⟨_, hmem, congrArg Move.tasks hm⟩
    · exact hagain hmem hm
  | case5 n max? hne ih =>
    have hrounds : rounds r greedy (n + 1) max? = .run (.repeated r (n + 1) max? greedy) ::
        rounds r greedy n (max?.map (· - 1)) := by
      rw [rounds]
      exact hne
    rw [hrounds] at h ⊢
    rcases List.mem_cons.1 h with rfl | h
    · rw [moves, List.mem_singleton] at hm
      · exact Or.inr ⟨_, List.mem_cons_of_mem _ head_mem_rounds, congrArg Move.tasks hm⟩
      · exact hne
    · rcases ih h with hnil | ⟨t', ht', htasks⟩
      · exact Or.inl hnil
      · exact Or.inr ⟨t', List.mem_cons_of_mem _ ht', htasks⟩

end Rounds

/-! ## States -/

/-- The lists of tasks that are taken up from an expression on, with the tasks `k` behind it, as
long as anything of the expression is left. -/
def states : Regex → List Task → List (List Task)
  | .empty, k => [.run .empty :: k]
  | .chars s, k => [.run (.chars s) :: k]
  | .look l, k => [.run (.look l) :: k]
  | .cat a b, k => (.run (.cat a b) :: k) :: (a.states (.run b :: k) ++ b.states k)
  | .alt a b, k => (.run (.alt a b) :: k) :: (a.states k ++ b.states k)
  | .group g r, k => (.run (.group g r) :: k) :: (r.states (.close g :: k) ++ [.close g :: k])
  | .repeated r min max? greedy, k =>
    (rounds r greedy min max?).flatMap fun t => (t :: k) :: r.states (t :: k)

/-- An expression is its own first state. -/
theorem head_mem_states (r : Regex) (k : List Task) : .run r :: k ∈ r.states k := by
  cases r with
  | repeated r min max? greedy =>
    exact List.mem_flatMap.2 ⟨_, head_mem_rounds, List.mem_cons_self⟩
  | _ => exact List.mem_cons_self

/-- Lists of bounded length, one after the other. -/
theorem length_flatMap_le {α β : Type} {l : List α} {f : α → List β} {n : Nat}
    (h : ∀ a ∈ l, (f a).length ≤ n) : (l.flatMap f).length ≤ l.length * n := by
  induction l with
  | nil => simp
  | cons a l ih =>
    obtain ⟨ha, hl⟩ := List.forall_mem_cons.1 h
    have hrest := ih hl
    rw [List.flatMap_cons, List.length_append, List.length_cons, Nat.succ_mul]
    omega

/-- The weight of an expression is a bound on the number of its states. -/
theorem length_states_le (r : Regex) (k : List Task) : (r.states k).length ≤ r.weight := by
  induction r generalizing k with
  | empty => exact Nat.le_refl 1
  | chars s => exact Nat.le_refl 1
  | look l => exact Nat.le_refl 1
  | cat a b iha ihb =>
    have ha := iha (.run b :: k)
    have hb := ihb k
    simp only [states, weight, List.length_cons, List.length_append]
    omega
  | alt a b iha ihb =>
    have ha := iha k
    have hb := ihb k
    simp only [states, weight, List.length_cons, List.length_append]
    omega
  | group g r ih =>
    have hr := ih (.close g :: k)
    simp only [states, weight, List.length_cons, List.length_append, List.length_nil]
    omega
  | repeated r min max? greedy ih =>
    rw [states, weight]
    -- each round adds the states of the expression and itself
    refine (length_flatMap_le fun t _ => ?_).trans (Nat.mul_le_mul_right _ length_rounds_le)
    have ht := ih (t :: k)
    rw [List.length_cons]
    omega

/-- Something of the expression is left in each of its states. -/
theorem exists_append_of_mem_states {r : Regex} {k ts : List Task} (h : ts ∈ r.states k) :
    ∃ t us, ts = t :: (us ++ k) := by
  induction r generalizing k with
  | empty => exact ⟨_, [], List.mem_singleton.1 h⟩
  | chars s => exact ⟨_, [], List.mem_singleton.1 h⟩
  | look l => exact ⟨_, [], List.mem_singleton.1 h⟩
  -- while the first part is matched, the second one is still to be run behind it
  | cat a b iha ihb =>
    simp only [states, List.mem_cons, List.mem_append] at h
    rcases h with rfl | h | h
    · exact ⟨_, [], rfl⟩
    · obtain ⟨t, us, rfl⟩ := iha h
      exact ⟨t, us ++ [.run b], by simp⟩
    · exact ihb h
  | alt a b iha ihb =>
    simp only [states, List.mem_cons, List.mem_append] at h
    rcases h with rfl | h | h
    · exact ⟨_, [], rfl⟩
    · exact iha h
    · exact ihb h
  -- while the group is open, its closing is still to be done behind the body
  | group g r ih =>
    simp only [states, List.mem_cons, List.mem_append, List.not_mem_nil, or_false] at h
    rcases h with rfl | h | rfl
    · exact ⟨_, [], rfl⟩
    · obtain ⟨t, us, rfl⟩ := ih h
      exact ⟨t, us ++ [.close g], by simp⟩
    · exact ⟨_, [], rfl⟩
  -- behind the body in a round come the rounds that are left
  | repeated r min max? greedy ih =>
    obtain ⟨t, -, h⟩ := List.mem_flatMap.1 h
    rcases List.mem_cons.1 h with rfl | h
    · exact ⟨_, [], rfl⟩
    · obtain ⟨t', us, rfl⟩ := ih h
      exact ⟨t', us ++ [t], by simp⟩

/-- **Every move from a state leads to a state, or to what is behind the expression.** -/
theorem mem_states_of_mem_moves {r : Regex} {k : List Task} {task : Task} {rest : List Task}
    (h : task :: rest ∈ r.states k) {place : Place} {notes : Notes} {m : Move}
    (hm : m ∈ moves task place notes) :
    m.tasks ++ rest ∈ r.states k ∨ m.tasks ++ rest = k := by
  induction r generalizing k with
  | empty =>
    obtain ⟨rfl, rfl⟩ := List.cons.inj (List.mem_singleton.1 h)
    obtain rfl := List.mem_singleton.1 hm
    exact Or.inr rfl
  | chars s =>
    obtain ⟨rfl, rfl⟩ := List.cons.inj (List.mem_singleton.1 h)
    obtain ⟨c, rest, -, -, rfl⟩ := exists_of_mem_moves_chars hm
    exact Or.inr rfl
  | look l =>
    obtain ⟨rfl, rfl⟩ := List.cons.inj (List.mem_singleton.1 h)
    obtain rfl := eq_of_mem_moves_look hm
    exact Or.inr rfl
  | cat a b iha ihb =>
    simp only [states, List.mem_cons, List.mem_append] at h ⊢
    rcases h with h | h | h
    · obtain ⟨rfl, rfl⟩ := List.cons.inj h
      obtain rfl := List.mem_singleton.1 hm
      exact Or.inl (Or.inr (Or.inl (head_mem_states a _)))
    · -- behind the first part comes the second one
      rcases iha h with hmem | hend
      · exact Or.inl (Or.inr (Or.inl hmem))
      · exact Or.inl (Or.inr (Or.inr (hend ▸ head_mem_states b k)))
    · exact (ihb h).imp_left fun hmem => Or.inr (Or.inr hmem)
  | alt a b iha ihb =>
    simp only [states, List.mem_cons, List.mem_append] at h ⊢
    rcases h with h | h | h
    · obtain ⟨rfl, rfl⟩ := List.cons.inj h
      simp only [moves, List.mem_cons, List.not_mem_nil, or_false] at hm
      rcases hm with rfl | rfl
      · exact Or.inl (Or.inr (Or.inl (head_mem_states a _)))
      · exact Or.inl (Or.inr (Or.inr (head_mem_states b _)))
    · exact (iha h).imp_left fun hmem => Or.inr (Or.inl hmem)
    · exact (ihb h).imp_left fun hmem => Or.inr (Or.inr hmem)
  | group g r ih =>
    simp only [states, List.mem_cons, List.mem_append, List.not_mem_nil, or_false] at h ⊢
    rcases h with h | h | h
    · obtain ⟨rfl, rfl⟩ := List.cons.inj h
      obtain rfl := List.mem_singleton.1 hm
      exact Or.inl (Or.inr (Or.inl (head_mem_states r _)))
    · exact Or.inl (Or.inr (ih h))
    · obtain ⟨rfl, rfl⟩ := List.cons.inj h
      obtain rfl := List.mem_singleton.1 hm
      exact Or.inr rfl
  | repeated r min max? greedy ih =>
    -- a round is a state by itself, and those of the expression lead to it
    have hround : ∀ {t}, t ∈ rounds r greedy min max? →
        t :: k ∈ (Regex.repeated r min max? greedy).states k := fun ht =>
      List.mem_flatMap.2 ⟨_, ht, List.mem_cons_self⟩
    have hinner : ∀ {t ts}, t ∈ rounds r greedy min max? → ts ∈ r.states (t :: k) →
        ts ∈ (Regex.repeated r min max? greedy).states k := fun ht hts =>
      List.mem_flatMap.2 ⟨_, ht, List.mem_cons_of_mem _ hts⟩
    obtain ⟨t, ht, h⟩ := List.mem_flatMap.1 h
    rcases List.mem_cons.1 h with h | h
    · obtain ⟨rfl, rfl⟩ := List.cons.inj h
      rcases moves_of_mem_rounds ht hm with htasks | ⟨t', ht', htasks⟩
      · exact Or.inr (by rw [htasks]; rfl)
      · exact Or.inl (htasks ▸ hinner ht' (head_mem_states r _))
    · -- behind the expression comes the round that it was taken up for
      rcases ih h with hmem | hend
      · exact Or.inl (hinner ht hmem)
      · exact Or.inl (hend ▸ hround ht)

/-! ## Places behind a place -/

namespace Place

/-- Whether a place is reached from another one by going on in the text. -/
def Reaches (p q : Place) : Prop := ∃ n ≤ p.rest.length, q = p.advance n

/-- No character taken. -/
theorem Reaches.refl (p : Place) : p.Reaches p := ⟨0, Nat.zero_le _, rfl⟩

/-- Each character taken moves the place on by one. -/
theorem index_advance {p : Place} {n : Nat} (hn : n ≤ p.rest.length) :
    (p.advance n).index = p.index + n := by
  induction n generalizing p with
  | zero => rfl
  | succ n ih =>
    obtain ⟨before, rest, index⟩ := p
    cases rest with
    | nil => cases hn
    | cons c rest =>
      rw [advance, ih (Nat.le_of_succ_le_succ hn)]
      exact Nat.succ_add_eq_add_succ index n

/-- Each character taken is missing from what is left. -/
theorem length_rest_advance (p : Place) (n : Nat) :
    (p.advance n).rest.length = p.rest.length - n := by
  induction n generalizing p with
  | zero => rfl
  | succ n ih =>
    obtain ⟨before, rest, index⟩ := p
    cases rest with
    | nil => exact (Nat.zero_sub _).symm
    | cons c rest =>
      rw [advance, ih]
      simp

/-- One character more. -/
theorem advance_succ {p : Place} {n : Nat} {c : Char} {rest : List Char}
    (h : (p.advance n).rest = c :: rest) :
    p.advance (n + 1) = { before := some c, rest, index := (p.advance n).index + 1 } := by
  induction n generalizing p with
  | zero =>
    obtain ⟨before, chars, index⟩ := p
    obtain rfl : chars = c :: rest := h
    rfl
  | succ n ih =>
    obtain ⟨before, chars, index⟩ := p
    cases chars with
    | nil => cases h
    | cons d chars => exact ih h

/-- The place behind the next character is reached too. -/
theorem Reaches.next {p q : Place} (h : p.Reaches q) {c : Char} {rest : List Char}
    (hrest : q.rest = c :: rest) :
    p.Reaches { before := some c, rest, index := q.index + 1 } := by
  obtain ⟨n, hn, rfl⟩ := h
  have hlength := length_rest_advance p n
  rw [hrest, List.length_cons] at hlength
  exact ⟨n + 1, by omega, (advance_succ hrest).symm⟩

/-- Places that are reached are in the text. -/
theorem Reaches.index_le {p q : Place} (h : p.Reaches q) :
    p.index ≤ q.index ∧ q.index ≤ p.index + p.rest.length := by
  obtain ⟨n, hn, rfl⟩ := h
  rw [index_advance hn]
  omega

/-- A place behind another one is known by its index. -/
theorem Reaches.eq_of_index_eq {p q q' : Place} (h : p.Reaches q) (h' : p.Reaches q')
    (hindex : q.index = q'.index) : q = q' := by
  obtain ⟨n, hn, rfl⟩ := h
  obtain ⟨n', hn', rfl⟩ := h'
  rw [index_advance hn, index_advance hn'] at hindex
  rw [Nat.add_left_cancel hindex]

end Place

/-- A move stays at its place, or takes the next character. -/
theorem place_of_mem_moves {task : Task} {place : Place} {notes : Notes} {m : Move}
    (h : m ∈ moves task place notes) :
    m.place = place ∨ ∃ c rest, place.rest = c :: rest ∧
      m.place = { before := some c, rest, index := place.index + 1 } := by
  unfold moves at h
  split at h
  case h_5 s =>
    obtain ⟨c, rest, hrest, -, rfl⟩ := exists_of_mem_moves_chars h
    exact Or.inr ⟨c, rest, hrest, rfl⟩
  case h_6 l => exact Or.inl (congrArg Move.place (eq_of_mem_moves_look h))
  all_goals
    simp only [List.mem_cons, List.not_mem_nil, or_false] at h
    rcases h with rfl | rfl <;> exact Or.inl rfl

/-- A move takes at most one character. -/
theorem Place.Reaches.of_mem_moves {p q : Place} (h : p.Reaches q) {task : Task} {notes : Notes}
    {m : Move} (hm : m ∈ moves task q notes) : p.Reaches m.place := by
  rcases place_of_mem_moves hm with hplace | ⟨c, rest, hrest, hplace⟩
  · exact hplace ▸ h
  · exact hplace ▸ h.next hrest

/-! ## What is taken up from a place on -/

/-- Whether everything that is taken up next, from something in a set on, is in the set too. -/
def Closed (p : Place) (set : Finset (Nat × List Task)) : Prop :=
  ∀ ⦃q : Place⦄ ⦃task : Task⦄ ⦃k : List Task⦄, p.Reaches q → (q.index, task :: k) ∈ set →
    ∀ ⦃notes : Notes⦄, ∀ m ∈ moves task q notes,
      m.tasks ++ k = [] ∨ (m.place.index, m.tasks ++ k) ∈ set

/-- The states of an expression, each at every place from a given one on. -/
def reachable (r : Regex) (p : Place) : Finset (Nat × List Task) :=
  Finset.Icc p.index (p.index + p.rest.length) ×ˢ (r.states []).toFinset

/-- The states and the places are paired in every way. -/
theorem mem_reachable {r : Regex} {p : Place} {entry : Nat × List Task} :
    entry ∈ reachable r p ↔
      (p.index ≤ entry.1 ∧ entry.1 ≤ p.index + p.rest.length) ∧ entry.2 ∈ r.states [] := by
  rw [reachable, Finset.mem_product, Finset.mem_Icc, List.mem_toFinset]

/-- The expression at the first place is one pair. -/
theorem start_mem_reachable (r : Regex) (p : Place) : (p.index, [.run r]) ∈ reachable r p :=
  mem_reachable.2 ⟨⟨Nat.le_refl _, Nat.le_add_right _ _⟩, head_mem_states r []⟩

/-- What is taken up from a place on stays among the states at the places behind it. -/
theorem closed_reachable (r : Regex) (p : Place) : Closed p (reachable r p) := by
  intro q task k hq hmem notes m hm
  obtain ⟨-, hstate⟩ := mem_reachable.1 hmem
  rcases mem_states_of_mem_moves hstate hm with hnext | hend
  · exact Or.inr (mem_reachable.2 ⟨(hq.of_mem_moves hm).index_le, hnext⟩)
  · exact Or.inl hend

/-- What can be taken up from a place on is less than the fuel of a match. -/
theorem card_reachable_lt (r : Regex) (p : Place) :
    (reachable r p).card < (p.rest.length + 1) * (r.weight + 2) := by
  have hstates : (r.states []).toFinset.card ≤ r.weight :=
    (List.toFinset_card_le _).trans (length_states_le r [])
  calc (reachable r p).card = (p.rest.length + 1) * (r.states []).toFinset.card := by
        rw [reachable, Finset.card_product, Nat.card_Icc]
        congr 1
        omega
    _ ≤ (p.rest.length + 1) * r.weight := Nat.mul_le_mul_left _ hstates
    _ < (p.rest.length + 1) * (r.weight + 2) := Nat.mul_lt_mul_of_pos_left (by omega) (by omega)

end Parley.Regex
