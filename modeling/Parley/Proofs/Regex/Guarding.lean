import Mathlib.Algebra.GroupWithZero.Nat
import Parley.Proofs.Regex.Scanning
import Parley.Proofs.Regex.States

/-!
# What the guard leaves out

A guarded match takes nothing up twice at a place. What it finds does not depend on more than that:
neither on fuel, if there is enough of it for all the states, nor on what has been tried of other
expressions. And where no match can come to the same place twice, the guard leaves out only what
leads nowhere, so that it makes no difference at all.

Main results:

* `same_explore` — explorations that agree in what has been tried of the states come to the same;
* `matchAt_eq` — a match at a place is what a guarded exploration finds.
-/

namespace Parley.Regex

/-! ## What has been tried of a set -/

/-- What is left of a set when some things have been tried. -/
def left (set : Finset (Nat × List Task)) (tried : Tried) : Finset (Nat × List Task) :=
  set \ tried.toFinset

/-- Before anything is tried, all is left. -/
theorem left_nil (set : Finset (Nat × List Task)) : left set [] = set := Finset.sdiff_empty

/-- The more has been tried, the less is left. -/
theorem card_left_le (set : Finset (Nat × List Task)) {tried t : Tried} (h : tried ⊆ t) :
    (left set t).card ≤ (left set tried).card := by
  refine Finset.card_le_card (Finset.sdiff_subset_sdiff (Finset.Subset.refl set) fun e he => ?_)
  exact List.mem_toFinset.2 (h (List.mem_toFinset.1 he))

/-- When something new of the set is tried, less is left. -/
theorem card_left_cons_lt {set : Finset (Nat × List Task)} {tried : Tried}
    {e : Nat × List Task} (he : e ∈ set) (hnew : e ∉ tried) :
    (left set (e :: tried)).card < (left set tried).card := by
  refine Finset.card_lt_card (Finset.ssubset_iff_of_subset ?_ |>.2 ⟨e, ?_, ?_⟩)
  · intro d hd
    rw [left, Finset.mem_sdiff, List.mem_toFinset] at hd ⊢
    exact ⟨hd.1, fun hmem => hd.2 (List.mem_cons_of_mem e hmem)⟩
  · rw [left, Finset.mem_sdiff, List.mem_toFinset]
    exact ⟨he, hnew⟩
  · rw [left, Finset.mem_sdiff, List.mem_toFinset]
    exact fun h => h.2 List.mem_cons_self

/-- Whether the same of a set has been tried. -/
def Agree (set : Finset (Nat × List Task)) (tried tried' : Tried) : Prop :=
  ∀ e ∈ set, e ∈ tried ↔ e ∈ tried'

/-- Two records of what was tried agree after one more thing that is added to both. -/
theorem Agree.cons {set : Finset (Nat × List Task)} {tried tried' : Tried}
    (h : Agree set tried tried') (e : Nat × List Task) : Agree set (e :: tried) (e :: tried') :=
  fun d hd => by rw [List.mem_cons, List.mem_cons, h d hd]

/-- Whether nothing outside of a set has been tried since. -/
structure Grows (set : Finset (Nat × List Task)) (tried t : Tried) : Prop where
  kept : tried ⊆ t
  new : ∀ e ∈ t, e ∈ tried ∨ e ∈ set

/-- A record of what was tried grows into itself. -/
theorem Grows.refl (set : Finset (Nat × List Task)) (tried : Tried) : Grows set tried tried :=
  ⟨List.Subset.refl tried, fun _ => Or.inl⟩

/-- Records of what was tried that grow twice have grown. -/
theorem Grows.trans {set : Finset (Nat × List Task)} {tried t u : Tried} (h : Grows set tried t)
    (h' : Grows set t u) : Grows set tried u :=
  ⟨List.Subset.trans h.kept h'.kept, fun e he => (h'.new e he).elim (h.new e) Or.inr⟩

/-- A record grows by a thing of the set. -/
theorem Grows.cons {set : Finset (Nat × List Task)} {e : Nat × List Task} (he : e ∈ set)
    (tried : Tried) : Grows set tried (e :: tried) :=
  ⟨List.subset_cons_self e tried, fun _ hd =>
    (List.mem_cons.1 hd).elim (fun heq => Or.inr (heq ▸ he)) Or.inl⟩

/-! ## Explorations that come to the same -/

/-- Whether two explorations find the same, or both nothing with the same of a set tried. -/
inductive Same (set : Finset (Nat × List Task)) (tried tried' : Tried) :
    Except Tried Outcome → Except Tried Outcome → Prop where
  | found (o : Outcome) : Same set tried tried' (.ok o) (.ok o)
  | failed {t t' : Tried} (agree : Agree set t t') (grows : Grows set tried t)
    (grows' : Grows set tried' t') : Same set tried tried' (.error t) (.error t')

section Exploring

variable {set : Finset (Nat × List Task)} {tried tried' : Tried}

/-- What was tried before two explorations makes no difference between them. -/
theorem Same.of_grows {t t' : Tried} {x y : Except Tried Outcome} (h : Same set t t' x y)
    (ht : Grows set tried t) (ht' : Grows set tried' t') : Same set tried tried' x y := by
  cases h with
  | found o => exact .found o
  | failed agree grows grows' => exact .failed agree (ht.trans grows) (ht'.trans grows')

/-- Moves that find the same one by one find the same in turn. -/
theorem same_tryMoves {fuel fuel' : Nat} {k : List Task} {ms : List Move}
    (h : ∀ m ∈ ms, ∀ tried tried', Agree set tried tried' → (left set tried).card < fuel →
      (left set tried).card < fuel' →
        Same set tried tried' (explore true fuel (m.tasks ++ k) tried m.place m.notes)
          (explore true fuel' (m.tasks ++ k) tried' m.place m.notes))
    (hagree : Agree set tried tried') (hfuel : (left set tried).card < fuel)
    (hfuel' : (left set tried).card < fuel') :
    Same set tried tried' (tryMoves true fuel k ms tried) (tryMoves true fuel' k ms tried') := by
  induction ms generalizing tried tried' with
  | nil => exact .failed hagree (.refl set tried) (.refl set tried')
  | cons m ms ih =>
    obtain ⟨hm, hms⟩ := List.forall_mem_cons.1 h
    have hsame := hm tried tried' hagree hfuel hfuel'
    rw [tryMoves, tryMoves]
    generalize explore true fuel (m.tasks ++ k) tried m.place m.notes = x at hsame ⊢
    generalize explore true fuel' (m.tasks ++ k) tried' m.place m.notes = y at hsame ⊢
    cases hsame with
    | found o => exact .found o
    -- what the first move has tried is not tried again on either side, so that the fuel is enough
    -- for the others
    | failed agree grows grows' =>
      have hle := card_left_le set grows.kept
      exact (ih hms agree (by omega) (by omega)).of_grows grows grows'

/-- **Explorations that agree in what has been tried of the states come to the same**, whatever else
has been tried, if each has fuel for all that is left. -/
theorem same_explore {p : Place} (hset : Closed p set) {fuel fuel' : Nat} {tasks : List Task}
    {q : Place} {notes : Notes} (hq : p.Reaches q)
    (hmem : tasks = [] ∨ (q.index, tasks) ∈ set) (hagree : Agree set tried tried')
    (hfuel : (left set tried).card < fuel) (hfuel' : (left set tried).card < fuel') :
    Same set tried tried' (explore true fuel tasks tried q notes)
      (explore true fuel' tasks tried' q notes) := by
  induction fuel generalizing fuel' tasks tried tried' q notes with
  | zero => cases hfuel
  | succ fuel ih =>
    obtain ⟨fuel', rfl⟩ := Nat.exists_eq_succ_of_ne_zero (Nat.ne_zero_of_lt hfuel')
    cases tasks with
    | nil => exact .found _
    | cons task k =>
      have hmem : (q.index, task :: k) ∈ set := hmem.resolve_left (List.cons_ne_nil task k)
      rw [explore_cons, explore_cons, Bool.true_and, Bool.true_and, triedWith, triedWith,
        if_pos rfl, if_pos rfl]
      by_cases htried : (q.index, task :: k) ∈ tried
      · -- it is a state, so that it has been tried on both sides
        rw [if_pos (List.contains_iff_mem.2 htried),
          if_pos (List.contains_iff_mem.2 ((hagree _ hmem).1 htried))]
        exact .failed hagree (.refl set tried) (.refl set tried')
      · rw [if_neg (fun h => htried (List.contains_iff_mem.1 h)),
          if_neg (fun h => htried ((hagree _ hmem).2 (List.contains_iff_mem.1 h)))]
        -- each has fuel for what is left, which is less by what is taken up now
        have hless := card_left_cons_lt hmem htried
        refine (same_tryMoves (fun m hm t t' ht hleft hleft' => ?_) (hagree.cons _) (by omega)
          (by omega)).of_grows (.cons hmem tried) (.cons hmem tried')
        exact ih (hq.of_mem_moves hm) (hset hq hmem m hm) ht hleft hleft'

end Exploring

/-! ## How far a match is from its end -/

/-- Whether a task can come to the same place time and again. -/
def Task.retraces : Task → Bool
  | .run r => r.retraces
  | .again (.chars _) _ => false
  | .again _ _ => true
  | .close _ => false

/-- The steps without a character that an expression can take where nothing comes twice. -/
def cost : Regex → Nat
  | .empty => 1
  | .chars _ => 0
  | .look _ => 1
  | .cat a b => a.cost + b.cost + 1
  | .alt a b => a.cost + b.cost + 1
  | .group _ r => r.cost + 2
  | .repeated r min max? _ => (min + max?.getD 0 + 2) * (r.cost + 1)

def Task.cost : Task → Nat
  | .run r => r.cost
  | .again _ _ => 1
  | .close _ => 1

/-- Going on with a repetition costs nothing by itself, but a character is next then. -/
def lead : List Task → Nat
  | [] => 0
  | .run (.chars _) :: _ => 0
  | _ :: _ => 1

/-- At most one step is needed to come to a character. -/
theorem lead_le (tasks : List Task) : lead tasks ≤ 1 := by
  unfold lead
  split <;> omega

/-- A bound on the moves to the end of tasks where nothing comes twice. -/
def height (q : Place) (tasks : List Task) : Nat :=
  2 * q.rest.length + 2 * (tasks.map Task.cost).sum + lead tasks

section Height

variable {task : Task} {k : List Task} {q : Place} {notes : Notes} {m : Move}

/-- A move at the same place is a step down if what is left to be done costs less. -/
theorem height_lt_of_stay {tasks : List Task} (hplace : m.place = q) (htasks : m.tasks = tasks)
    (hcost : (tasks.map Task.cost).sum < task.cost) :
    height m.place (m.tasks ++ k) < height q (task :: k) := by
  rw [height, height, hplace, htasks, List.map_append, List.sum_append, List.map_cons,
    List.sum_cons]
  have hlead := lead_le (tasks ++ k)
  omega

/-- One round and fewer rounds behind it cost less than the rounds that there were. -/
theorem round_cost_lt {x y c : Nat} (h : x < y) : c + (x + 2) * (c + 1) < (y + 2) * (c + 1) := by
  calc c + (x + 2) * (c + 1) < (x + 2) * (c + 1) + (c + 1) := by omega
    _ = (x + 2 + 1) * (c + 1) := (Nat.succ_mul (x + 2) (c + 1)).symm
    _ ≤ (y + 2) * (c + 1) := Nat.mul_le_mul_right _ (by omega)

/-- What is left to be done of a repetition costs less than the repetition. -/
theorem cost_lt_of_mem_moves_repeated {r : Regex} {min : Nat} {max? : Option Nat} {greedy : Bool}
    (hm : m ∈ moves (.run (.repeated r min max? greedy)) q notes) :
    m.place = q ∧ (m.tasks.map Task.cost).sum < (Regex.repeated r min max? greedy).cost := by
  have hleave : 0 < (min + max?.getD 0 + 2) * (r.cost + 1) := Nat.mul_pos (by omega) (by omega)
  have hagain : r.cost + (1 + 0) < (min + max?.getD 0 + 2) * (r.cost + 1) :=
    Nat.lt_of_lt_of_le (by omega) (Nat.mul_le_mul_right (r.cost + 1) (Nat.le_add_left 2 _))
  -- rounds that have to be made come before those that may be made
  rcases min with _ | n
  · rcases max? with _ | _ | k
    · cases greedy <;> simp only [moves, List.mem_cons, List.not_mem_nil, or_false] at hm <;>
        rcases hm with rfl | rfl
      · exact ⟨rfl, hleave⟩
      · exact ⟨rfl, hagain⟩
      · exact ⟨rfl, hagain⟩
      · exact ⟨rfl, hleave⟩
    · obtain rfl := List.mem_singleton.1 hm
      exact ⟨rfl, hleave⟩
    · have hround : r.cost + ((0 + k + 2) * (r.cost + 1) + 0) < (0 + (k + 1) + 2) * (r.cost + 1) :=
        round_cost_lt (by omega)
      cases greedy <;> simp only [moves, List.mem_cons, List.not_mem_nil, or_false] at hm <;>
        rcases hm with rfl | rfl
      · exact ⟨rfl, hleave⟩
      · exact ⟨rfl, hround⟩
      · exact ⟨rfl, hround⟩
      · exact ⟨rfl, hleave⟩
  · by_cases hlast : n = 0 ∧ max? = none
    · obtain ⟨rfl, rfl⟩ := hlast
      obtain rfl := List.mem_singleton.1 hm
      exact ⟨rfl, hagain⟩
    · rw [moves, List.mem_singleton] at hm
      · subst hm
        refine ⟨rfl, ?_⟩
        -- of both bounds one round is taken off
        have hless : n + (max?.map (· - 1)).getD 0 < n + 1 + max?.getD 0 := by
          cases max? with
          | none => exact Nat.lt_succ_self n
          | some k =>
            rw [Option.map_some, Option.getD_some, Option.getD_some]
            omega
        have hround := @round_cost_lt _ _ r.cost hless
        simpa [Task.cost, cost] using hround
      · exact fun hmax hn => hlast ⟨hn, hmax⟩

/-- Where nothing comes twice, every move is a step down. -/
theorem height_lt_of_mem_moves (htask : task.retraces = false) (hm : m ∈ moves task q notes) :
    height m.place (m.tasks ++ k) < height q (task :: k) := by
  have hstay : ∀ {tasks : List Task}, m = ⟨tasks, q, notes⟩ →
      (tasks.map Task.cost).sum < task.cost →
        height m.place (m.tasks ++ k) < height q (task :: k) := by
    rintro tasks rfl hcost
    exact height_lt_of_stay rfl rfl hcost
  cases task with
  | close g =>
    obtain rfl := List.mem_singleton.1 hm
    exact height_lt_of_stay rfl rfl Nat.one_pos
  | again r greedy =>
    cases r with
    | chars s =>
      -- going on costs nothing, but a character is next
      have hgo : height q (.run (.chars s) :: .again (.chars s) greedy :: k) <
          height q (.again (.chars s) greedy :: k) := by
        simp only [height, lead, List.map_cons, List.sum_cons, Task.cost, cost]
        omega
      cases greedy <;> simp only [moves, List.mem_cons, List.not_mem_nil, or_false] at hm <;>
        rcases hm with hm | hm
      · exact hstay hm Nat.one_pos
      · rw [hm]
        exact hgo
      · rw [hm]
        exact hgo
      · exact hstay hm Nat.one_pos
    | _ => cases htask
  | run r =>
    cases r with
    | empty => exact hstay (List.mem_singleton.1 hm) Nat.one_pos
    | chars s =>
      obtain ⟨c, rest, hrest, -, rfl⟩ := exists_of_mem_moves_chars hm
      have hlead := lead_le k
      have hhead : lead (.run (.chars s) :: k) = 0 := rfl
      rw [height, height, hhead, hrest, List.map_cons, List.sum_cons, List.length_cons,
        List.nil_append]
      dsimp only
      omega
    | look l => exact hstay (eq_of_mem_moves_look hm) Nat.one_pos
    | cat a b =>
      refine hstay (List.mem_singleton.1 hm) ?_
      simp only [List.map_cons, List.map_nil, List.sum_cons, List.sum_nil, Task.cost, cost]
      omega
    | alt a b =>
      simp only [moves, List.mem_cons, List.not_mem_nil, or_false] at hm
      rcases hm with hm | hm
      all_goals
        refine hstay hm ?_
        simp only [List.map_cons, List.map_nil, List.sum_cons, List.sum_nil, Task.cost, cost]
        omega
    | group g r =>
      obtain rfl := List.mem_singleton.1 hm
      refine height_lt_of_stay rfl rfl ?_
      simp only [List.map_cons, List.map_nil, List.sum_cons, List.sum_nil, Task.cost, cost]
      omega
    | repeated r min max? greedy =>
      obtain ⟨hplace, hcost⟩ := cost_lt_of_mem_moves_repeated hm
      exact height_lt_of_stay hplace rfl hcost

/-- Only repetitions of single characters, and those of one time at most, come nowhere twice. -/
theorem retraces_repeated {r : Regex} {min : Nat} {max? : Option Nat} {greedy : Bool} :
    (Regex.repeated r min max? greedy).retraces = false ↔
      (∃ s, r = .chars s) ∨ r.retraces = false ∧ (max? = some 0 ∨ max? = some 1) := by
  cases r <;> rcases max? with _ | _ | _ | k <;> simp [retraces]

/-- What is left to be done does not come twice either. -/
theorem retraces_of_mem_moves (htask : task.retraces = false) (hm : m ∈ moves task q notes) :
    ∀ t ∈ m.tasks, t.retraces = false := by
  cases task with
  | close g =>
    obtain rfl := List.mem_singleton.1 hm
    simp
  | again r greedy =>
    cases r with
    | chars s =>
      cases greedy <;> simp only [moves, List.mem_cons, List.not_mem_nil, or_false] at hm <;>
        rcases hm with rfl | rfl <;> simp [Task.retraces, retraces]
    | _ => cases htask
  | run r =>
    cases r with
    | empty =>
      obtain rfl := List.mem_singleton.1 hm
      simp
    | chars s =>
      obtain ⟨c, rest, -, -, rfl⟩ := exists_of_mem_moves_chars hm
      simp
    | look l =>
      obtain rfl := eq_of_mem_moves_look hm
      simp
    | cat a b =>
      obtain rfl := List.mem_singleton.1 hm
      simpa [Task.retraces, retraces] using htask
    | alt a b =>
      have hparts : a.retraces = false ∧ b.retraces = false := by
        simpa [Task.retraces, retraces] using htask
      simp only [moves, List.mem_cons, List.not_mem_nil, or_false] at hm
      rcases hm with rfl | rfl
      · simpa [Task.retraces] using hparts.1
      · simpa [Task.retraces] using hparts.2
    | group g r =>
      obtain rfl := List.mem_singleton.1 hm
      simpa [Task.retraces, retraces] using htask
    | repeated r min max? greedy =>
      rcases moves_of_mem_rounds head_mem_rounds hm with htasks | ⟨t', ht', htasks⟩
      · simp [htasks]
      · have hround : r.retraces = false ∧ t'.retraces = false := by
          rcases retraces_repeated.1 htask with ⟨s, rfl⟩ | ⟨hr, hmax⟩
          · rcases eq_of_mem_rounds ht' with ⟨-, rfl⟩ | ⟨n, m?, rfl, -⟩ <;> exact ⟨rfl, rfl⟩
          · -- the bound of the next round is at most one as well
            refine ⟨hr, ?_⟩
            rcases eq_of_mem_rounds ht' with ⟨hnone, -⟩ | ⟨n, m?, rfl, hle⟩
            · simp [hnone] at hmax
            · refine retraces_repeated.2 (Or.inr ⟨hr, ?_⟩)
              rcases hmax with hmax | hmax <;> obtain ⟨l, hl, rfl⟩ := hle _ hmax
              · exact Or.inl (by rw [Nat.le_zero.1 hl])
              · rcases Nat.le_one_iff_eq_zero_or_eq_one.1 hl with rfl | rfl
                · exact Or.inl rfl
                · exact Or.inr rfl
        rw [htasks]
        simpa [Task.retraces] using hround

end Height

/-! ## Where nothing comes twice -/

/-- Whether there is no way through tasks from a place. -/
def NoWay (tasks : List Task) (q : Place) : Prop := ∀ n notes o, ¬Way n tasks q notes o

/-- Where there is no way, an exploration fails, whatever it may spend. -/
theorem exists_error_of_noWay {tasks : List Task} {q : Place} (h : NoWay tasks q) (fuel : Nat)
    (tried : Tried) (notes : Notes) :
    ∃ t, explore false fuel tasks tried q notes = .error t := by
  cases hfound : explore false fuel tasks tried q notes with
  | ok o =>
    obtain ⟨n, -, hway⟩ := exists_way_of_explore hfound
    exact absurd hway (h n notes o)
  | error t => exact ⟨t, rfl⟩

/-- What moves lead to does not depend on what has been noted. -/
theorem map_moves (task : Task) (q : Place) (notes notes' : Notes) :
    ((moves task q notes).map fun m => (m.tasks, m.place)) =
      (moves task q notes').map fun m => (m.tasks, m.place) := by
  unfold moves
  split
  case h_5 s =>
    cases q.rest with
    | nil => rfl
    | cons c rest =>
      dsimp only
      split <;> rfl
  case h_6 l => split <;> rfl
  case h_16 => simp
  all_goals rfl

/-- There is no way if none of the moves has one. -/
theorem noWay_cons {task : Task} {k : List Task} {q : Place} {notes : Notes}
    (h : ∀ m ∈ moves task q notes, NoWay (m.tasks ++ k) m.place) : NoWay (task :: k) q := by
  intro n notes' o hway
  obtain ⟨m', hm', l, hrest, -⟩ := way_cons.1 hway
  have hmem := List.mem_map_of_mem (f := fun m => (m.tasks, m.place)) hm'
  rw [map_moves task q notes' notes] at hmem
  obtain ⟨m, hm, heq⟩ := List.mem_map.1 hmem
  obtain ⟨htasks, hplace⟩ := Prod.mk.inj heq
  refine h m hm l m'.notes o ?_
  rw [htasks, hplace]
  exact hrest

/-- Whether there is no way from anything tried, or it is at a given height at least and may still
be under way. -/
def Spent (p : Place) (bound : Nat) (tried : Tried) : Prop :=
  ∀ e ∈ tried, ∀ q, p.Reaches q → q.index = e.1 → bound ≤ height q e.2 ∨ NoWay e.2 q

/-- What a guarded exploration comes to where nothing comes twice: either the same is found without
the guard, or there is no way, neither here nor from anything that has been tried since. -/
inductive Unguarded (p : Place) (free : Tried → Except Tried Outcome) (dead : Prop)
    (tried : Tried) : Except Tried Outcome → Prop where
  | found {o : Outcome} (h : ∀ tried', free tried' = .ok o) : Unguarded p free dead tried (.ok o)
  | failed {t : Tried} (noWay : dead) (kept : tried ⊆ t)
    (new : ∀ e ∈ t, e ∈ tried ∨ ∀ q, p.Reaches q → q.index = e.1 → NoWay e.2 q) :
    Unguarded p free dead tried (.error t)

section Unguarded

variable {p : Place} {set : Finset (Nat × List Task)}

/-- What is high enough for a bound is so for a lower one. -/
theorem Spent.mono {bound bound' : Nat} {tried : Tried} (h : Spent p bound tried)
    (hle : bound' ≤ bound) : Spent p bound' tried := fun e he q hq hindex =>
  (h e he q hq hindex).imp_left hle.trans

/-- What was tried since is spent if there is no way from it. -/
theorem Spent.of_new {bound : Nat} {tried t : Tried} (h : Spent p bound tried)
    (hnew : ∀ e ∈ t, e ∈ tried ∨ ∀ q, p.Reaches q → q.index = e.1 → NoWay e.2 q) :
    Spent p bound t := fun e he q hq hindex =>
  (hnew e he).elim (fun hmem => h e hmem q hq hindex) fun hno => Or.inr (hno q hq hindex)

/-- The moves one after the other, if each of them comes to the same. -/
theorem unguarded_tryMoves {bound fuel : Nat} {k : List Task} {ms : List Move} {tried : Tried}
    (h : ∀ m ∈ ms, ∀ tried, Spent p bound tried → (left set tried).card < fuel →
      Unguarded p (fun tried => explore false fuel (m.tasks ++ k) tried m.place m.notes)
        (NoWay (m.tasks ++ k) m.place) tried
        (explore true fuel (m.tasks ++ k) tried m.place m.notes))
    (hspent : Spent p bound tried) (hfuel : (left set tried).card < fuel) :
    Unguarded p (fun tried => tryMoves false fuel k ms tried)
      (∀ m ∈ ms, NoWay (m.tasks ++ k) m.place) tried (tryMoves true fuel k ms tried) := by
  induction ms generalizing tried with
  | nil => exact .failed (by simp) (List.Subset.refl tried) fun _ => Or.inl
  | cons m ms ih =>
    obtain ⟨hm, hms⟩ := List.forall_mem_cons.1 h
    have hfirst := hm tried hspent hfuel
    rw [tryMoves]
    generalize explore true fuel (m.tasks ++ k) tried m.place m.notes = x at hfirst ⊢
    cases hfirst with
    | found hfound => exact .found fun tried' => by rw [tryMoves, hfound]
    | @failed t noWay kept new =>
      have hle := card_left_le set kept
      have hrest := ih hms (hspent.of_new new) (by omega)
      dsimp only
      generalize tryMoves true fuel k ms t = y at hrest ⊢
      cases hrest with
      | found hfound =>
        -- without the guard the first move fails as well, whatever has been tried
        refine .found fun tried' => ?_
        obtain ⟨t', ht'⟩ := exists_error_of_noWay noWay fuel tried' m.notes
        rw [tryMoves, ht']
        exact hfound t'
      | failed noWays kept' new' =>
        refine .failed (List.forall_mem_cons.2 ⟨noWay, noWays⟩) (List.Subset.trans kept kept')
          fun e he => ?_
        exact (new' e he).elim (new e) Or.inr

/-- **Where nothing comes twice, the guard leaves out only what leads nowhere.** -/
theorem unguarded_explore (hset : Closed p set) {fuel : Nat} {tasks : List Task} {tried : Tried}
    {q : Place} {notes : Notes} (hq : p.Reaches q) (hmem : tasks = [] ∨ (q.index, tasks) ∈ set)
    (htasks : ∀ t ∈ tasks, t.retraces = false) (hspent : Spent p (height q tasks + 1) tried)
    (hfuel : (left set tried).card < fuel) :
    Unguarded p (fun tried => explore false fuel tasks tried q notes) (NoWay tasks q) tried
      (explore true fuel tasks tried q notes) := by
  induction fuel generalizing tasks tried q notes with
  | zero => cases hfuel
  | succ fuel ih =>
    cases tasks with
    | nil => exact .found fun _ => rfl
    | cons task k =>
      have hmem : (q.index, task :: k) ∈ set := hmem.resolve_left (List.cons_ne_nil task k)
      obtain ⟨htask, hk⟩ := List.forall_mem_cons.1 htasks
      simp only [explore_cons, Bool.true_and, Bool.false_and, triedWith, if_true]
      by_cases htried : (q.index, task :: k) ∈ tried
      · -- what is under way is higher, so that this has led nowhere
        have hno : NoWay (task :: k) q := (hspent _ htried q hq rfl).resolve_left (by simp)
        rw [if_pos (List.contains_iff_mem.2 htried)]
        exact .failed hno (List.Subset.refl tried) fun _ => Or.inl
      · rw [if_neg (fun h => htried (List.contains_iff_mem.1 h))]
        have hless := card_left_cons_lt hmem htried
        -- what is taken up now is under way from here on, at its own height
        have hnow : Spent p (height q (task :: k)) ((q.index, task :: k) :: tried) := by
          intro e he q' hq' hindex
          rcases List.mem_cons.1 he with rfl | he
          · exact Or.inl (hq.eq_of_index_eq hq' hindex.symm ▸ Nat.le_refl _)
          · exact (hspent e he q' hq' hindex).imp_left Nat.le_of_succ_le
        have hmoves := unguarded_tryMoves
          (fun m (hm : m ∈ moves task q notes) t ht hleft => ih (hq.of_mem_moves hm)
            (hset hq hmem m hm) (fun u hu => (List.mem_append.1 hu).elim
              (retraces_of_mem_moves htask hm u) (hk u))
            (ht.mono (height_lt_of_mem_moves htask hm)) hleft) hnow (by omega)
        generalize tryMoves true fuel k (moves task q notes) ((q.index, task :: k) :: tried) = x
          at hmoves ⊢
        cases hmoves with
        | found hfound => exact .found fun tried' => hfound tried'
        | failed noWays kept new =>
          have hno := noWay_cons noWays
          refine .failed hno (List.Subset.trans (List.subset_cons_self _ tried) kept) fun e he => ?_
          rcases new e he with hmem | hno'
          · rcases List.mem_cons.1 hmem with rfl | hmem
            · exact Or.inr fun q' hq' hindex => hq.eq_of_index_eq hq' hindex.symm ▸ hno
            · exact Or.inl hmem
          · exact Or.inr hno'

end Unguarded

/-! ## Matches at a place -/

/-- What an exploration from a place finds, as a match. -/
def matchOf (p : Place) (x : Except Tried Outcome) : Option Match :=
  x.toOption.map fun o => { start := p, stop := o.place, notes := o.notes }

/-- **A match at a place is what a guarded exploration finds**, whether the guard is needed or
not. -/
theorem matchAt_eq (r : Regex) (p : Place) :
    matchAt r p = matchOf p
      (explore true ((p.rest.length + 1) * (r.weight + 2)) [.run r] [] p []) := by
  -- the fuel is enough for every state that can be reached
  have hfuel : (left (reachable r p) []).card < (p.rest.length + 1) * (r.weight + 2) :=
    (left_nil _).symm ▸ card_reachable_lt r p
  have hmatch : matchAt r p = matchOf p
      (explore r.retraces ((p.rest.length + 1) * (r.weight + 2)) [.run r] [] p []) := by
    rw [matchAt]
    cases explore r.retraces ((p.rest.length + 1) * (r.weight + 2)) [.run r] [] p [] <;> rfl
  rw [hmatch]
  cases hr : r.retraces with
  | true => rfl
  -- without rounds that can be empty, remembering what has been tried makes no difference
  | false =>
    have hguard := @unguarded_explore p _ (closed_reachable r p) _ [.run r] [] p [] (.refl p)
      (Or.inr (start_mem_reachable r p)) (by simpa [Task.retraces] using hr) (by simp [Spent]) hfuel
    generalize explore true ((p.rest.length + 1) * (r.weight + 2)) [.run r] [] p [] = x at hguard ⊢
    cases hguard with
    | found hfound => rw [hfound]
    | failed noWay =>
      obtain ⟨t, ht⟩ := exists_error_of_noWay noWay ((p.rest.length + 1) * (r.weight + 2)) [] []
      rw [ht]
      rfl

end Parley.Regex
