import Mathlib.Data.List.Basic
import Parley.Regex.Match

/-!
# Ways through an expression

The matcher goes through the ways to the end of an expression in order of preference. Here a way is
a sequence of moves, said apart from the order in which they are tried: every match is the end of
one, and if nothing is kept from being taken up twice, a match is found whenever there is a way that
the fuel is enough for.

Main results:

* `exists_way_of_explore` and `exists_explore_of_way` — what the matcher finds are ways, and it
  finds one if there is one;
* `Way.append` and `Way.split` — ways are put together and taken apart where tasks are;
* `Way.exists_took` — a way takes a part of the text;
* `Way.exists_notes` — only the groups of an expression are noted.
-/

namespace Parley.Regex

/-! ## Moves -/

/-- What is to be done after a task has been taken up, with the place and the notes then. -/
structure Move where
  tasks : List Task
  place : Place
  notes : Notes

/-- The ways on from a task, in order of preference. -/
def moves (task : Task) (place : Place) (notes : Notes) : List Move :=
  match task with
  | .close g => [⟨[], place, (2 * g + 1, place.index) :: notes⟩]
  | .again r true => [⟨[.run r, .again r true], place, notes⟩, ⟨[], place, notes⟩]
  | .again r false => [⟨[], place, notes⟩, ⟨[.run r, .again r false], place, notes⟩]
  | .run .empty => [⟨[], place, notes⟩]
  | .run (.chars s) =>
    match place.rest with
    | [] => []
    | c :: rest =>
      if s.mem c then [⟨[], { before := some c, rest, index := place.index + 1 }, notes⟩] else []
  | .run (.look l) => if l.holds place then [⟨[], place, notes⟩] else []
  | .run (.cat a b) => [⟨[.run a, .run b], place, notes⟩]
  | .run (.alt a b) => [⟨[.run a], place, notes⟩, ⟨[.run b], place, notes⟩]
  | .run (.group g r) => [⟨[.run r, .close g], place, (2 * g, place.index) :: notes⟩]
  | .run (.repeated r 0 none true) =>
    [⟨[.run r, .again r true], place, notes⟩, ⟨[], place, notes⟩]
  | .run (.repeated r 0 none false) =>
    [⟨[], place, notes⟩, ⟨[.run r, .again r false], place, notes⟩]
  | .run (.repeated _ 0 (some 0) _) => [⟨[], place, notes⟩]
  | .run (.repeated r 0 (some (m + 1)) true) =>
    [⟨[.run r, .run (.repeated r 0 (some m) true)], place, notes⟩, ⟨[], place, notes⟩]
  | .run (.repeated r 0 (some (m + 1)) false) =>
    [⟨[], place, notes⟩, ⟨[.run r, .run (.repeated r 0 (some m) false)], place, notes⟩]
  | .run (.repeated r 1 none greedy) => [⟨[.run r, .again r greedy], place, notes⟩]
  | .run (.repeated r (n + 1) max? greedy) =>
    [⟨[.run r, .run (.repeated r n (max?.map (· - 1)) greedy)], place, notes⟩]

/-- Tries moves one after the other, with the tasks `k` behind them. -/
def tryMoves (guarded : Bool) (fuel : Nat) (k : List Task) :
    List Move → Tried → Except Tried Outcome
  | [], tried => .error tried
  | m :: ms, tried =>
    match explore guarded fuel (m.tasks ++ k) tried m.place m.notes with
    | .ok found => .ok found
    | .error tried => tryMoves guarded fuel k ms tried

/-- The only move decides. -/
theorem tryMoves_singleton (guarded : Bool) (fuel : Nat) (k : List Task) (m : Move)
    (tried : Tried) :
    tryMoves guarded fuel k [m] tried =
      explore guarded fuel (m.tasks ++ k) tried m.place m.notes := by
  rw [tryMoves]
  cases explore guarded fuel (m.tasks ++ k) tried m.place m.notes <;> rfl

/-- The second move is tried with what the first one has tried in vain. -/
theorem tryMoves_pair (guarded : Bool) (fuel : Nat) (k : List Task) (m m' : Move)
    (tried : Tried) :
    tryMoves guarded fuel k [m, m'] tried =
      match explore guarded fuel (m.tasks ++ k) tried m.place m.notes with
      | .ok found => .ok found
      | .error tried => explore guarded fuel (m'.tasks ++ k) tried m'.place m'.notes := by
  rw [tryMoves]
  cases explore guarded fuel (m.tasks ++ k) tried m.place m.notes with
  | ok found => rfl
  | error tried => exact tryMoves_singleton ..

/-- What is known to have been tried when a task is taken up. -/
def triedWith (guarded : Bool) (tasks : List Task) (place : Place) (tried : Tried) : Tried :=
  if guarded then (place.index, tasks) :: tried else tried

/-- The matcher tries the moves from the first task. -/
theorem explore_cons (guarded : Bool) (fuel : Nat) (task : Task) (k : List Task) (tried : Tried)
    (place : Place) (notes : Notes) :
    explore guarded (fuel + 1) (task :: k) tried place notes =
      if guarded && tried.contains (place.index, task :: k) then .error tried
      else
        tryMoves guarded fuel k (moves task place notes)
          (triedWith guarded (task :: k) place tried) := by
  rw [explore.eq_def]
  dsimp only
  split
  · rfl
  · show _ = tryMoves guarded fuel k (moves task place notes)
      (if guarded then (place.index, task :: k) :: tried else tried)
    generalize (if guarded then (place.index, task :: k) :: tried else tried) = now
    -- the moves of a task are what the matcher tries for it, constructor by constructor
    cases task with
    | close g => rw [moves, tryMoves_singleton]; rfl
    | again r greedy => cases greedy <;> (rw [moves, tryMoves_pair]; rfl)
    | run r =>
      cases r with
      | empty => rw [moves, tryMoves_singleton]; rfl
      | chars s =>
        rw [moves]
        cases place.rest with
        | nil => rfl
        | cons c rest =>
          dsimp only
          split
          · rw [tryMoves_singleton]; rfl
          · rfl
      | look l =>
        rw [moves]
        dsimp only
        split
        · rw [tryMoves_singleton]; rfl
        · rfl
      | cat a b => rw [moves, tryMoves_singleton]; rfl
      | alt a b => rw [moves, tryMoves_pair]; rfl
      | group g r => rw [moves, tryMoves_singleton]; rfl
      | repeated r min max? greedy =>
        rcases min with _ | _ | n
        · rcases max? with _ | _ | m
          · cases greedy <;> (rw [moves, tryMoves_pair]; rfl)
          · rw [moves, tryMoves_singleton]; rfl
          · cases greedy <;> (rw [moves, tryMoves_pair]; rfl)
        · cases max? with
          | none => rw [moves, tryMoves_singleton]; rfl
          | some m =>
            rw [moves, tryMoves_singleton]
            · rfl
            · simp
        · rw [moves, tryMoves_singleton]
          · rfl
          · simp

/-! ## Ways -/

/-- A way of a number of moves through tasks, from a place and notes to an outcome. -/
inductive Way : Nat → List Task → Place → Notes → Outcome → Prop where
  | done {place : Place} {notes : Notes} : Way 0 [] place notes ⟨place, notes⟩
  | move {n : Nat} {task : Task} {k : List Task} {place : Place} {notes : Notes} {m : Move}
    {o : Outcome} (hm : m ∈ moves task place notes) (h : Way n (m.tasks ++ k) m.place m.notes o) :
    Way (n + 1) (task :: k) place notes o

/-- What is found is found by one of the moves. -/
theorem exists_of_tryMoves {guarded : Bool} {fuel : Nat} {k : List Task} {ms : List Move}
    {tried : Tried} {o : Outcome} (h : tryMoves guarded fuel k ms tried = .ok o) :
    ∃ m ∈ ms, ∃ tried, explore guarded fuel (m.tasks ++ k) tried m.place m.notes = .ok o := by
  induction ms generalizing tried with
  | nil => cases h
  | cons m ms ih =>
    rw [tryMoves] at h
    split at h
    · next hfound =>
      obtain rfl := Except.ok.inj h
      exact ⟨m, List.mem_cons_self, tried, hfound⟩
    · obtain ⟨m', hm', hfound⟩ := ih h
      exact ⟨m', List.mem_cons_of_mem m hm', hfound⟩

/-- What the matcher finds is the end of a way that the fuel is enough for. -/
theorem exists_way_of_explore {guarded : Bool} {fuel : Nat} {tasks : List Task} {tried : Tried}
    {place : Place} {notes : Notes} {o : Outcome}
    (h : explore guarded fuel tasks tried place notes = .ok o) :
    ∃ n < fuel, Way n tasks place notes o := by
  induction fuel generalizing tasks tried place notes with
  | zero => cases tasks <;> cases h
  | succ fuel ih =>
    cases tasks with
    | nil =>
      obtain rfl := Except.ok.inj h
      exact ⟨0, Nat.zero_lt_succ fuel, .done⟩
    | cons task k =>
      rw [explore_cons] at h
      split at h
      · cases h
      · obtain ⟨m, hm, tried', hfound⟩ := exists_of_tryMoves h
        obtain ⟨n, hn, hway⟩ := ih hfound
        exact ⟨n + 1, Nat.succ_lt_succ hn, .move hm hway⟩

/-- If nothing is kept from being taken up twice, something is found whenever there is a way that
the fuel is enough for. -/
theorem exists_explore_of_way {n : Nat} {tasks : List Task} {place : Place} {notes : Notes}
    {o : Outcome} (h : Way n tasks place notes o) {fuel : Nat} (hn : n < fuel) (tried : Tried) :
    ∃ found, explore false fuel tasks tried place notes = .ok found := by
  induction h generalizing fuel tried with
  | done =>
    obtain ⟨fuel, rfl⟩ := Nat.exists_eq_succ_of_ne_zero (Nat.ne_zero_of_lt hn)
    exact ⟨_, rfl⟩
  | @move n task k place notes m o hm _ ih =>
    obtain ⟨fuel, rfl⟩ := Nat.exists_eq_succ_of_ne_zero (Nat.ne_zero_of_lt hn)
    rw [explore_cons, Bool.false_and, if_neg Bool.false_ne_true]
    -- the moves in front of this one may find something first
    generalize triedWith false (task :: k) place tried = now
    generalize moves task place notes = ms at hm
    induction ms generalizing now with
    | nil => cases hm
    | cons m' ms ihms =>
      rw [tryMoves]
      rcases List.mem_cons.1 hm with rfl | hm
      · obtain ⟨found, hfound⟩ := ih (Nat.lt_of_succ_lt_succ hn) now
        exact ⟨found, by rw [hfound]⟩
      · split
        · next found _ => exact ⟨found, rfl⟩
        · exact ihms _ hm

/-- Of alternatives, the first one that there is a way through is taken, if the fuel is enough for
the ways through those in front of it. -/
theorem exists_first_of_explore {rs : List Regex} (hrs : rs ≠ []) {fuel : Nat} {tried : Tried}
    {place : Place} {notes : Notes} {o : Outcome}
    (h : explore false fuel [.run (altAll rs)] tried place notes = .ok o) :
    ∃ front r behind, rs = front ++ r :: behind ∧ (∃ n, Way n [.run r] place notes o) ∧
      ∀ q ∈ front, ∀ n o', Way n [.run q] place notes o' → fuel ≤ n + rs.length := by
  induction rs generalizing fuel tried with
  | nil => exact absurd rfl hrs
  | cons r rest ih =>
    cases rest with
    | nil =>
      obtain ⟨n, -, hway⟩ := exists_way_of_explore h
      exact ⟨[], r, [], rfl, ⟨n, hway⟩, fun q hq => absurd hq List.not_mem_nil⟩
    | cons r' rest =>
      cases fuel with
      | zero => cases h
      | succ fuel =>
        rw [altAll, explore_cons, Bool.false_and, if_neg Bool.false_ne_true, moves,
          tryMoves_pair] at h
        -- the first alternative leads on, or it has failed and another one does
        · split at h
          · next found hfound =>
            obtain rfl := Except.ok.inj h
            obtain ⟨n, -, hway⟩ := exists_way_of_explore hfound
            exact ⟨[], r, r' :: rest, rfl, ⟨n, hway⟩, fun q hq => absurd hq List.not_mem_nil⟩
          · next tried' hfailed =>
            obtain ⟨front, q, behind, hsplit, hway, hfront⟩ := ih (List.cons_ne_nil r' rest) h
            refine ⟨r :: front, q, behind, congrArg (r :: ·) hsplit, hway, ?_⟩
            rw [List.forall_mem_cons]
            refine ⟨fun n o' hr => ?_, fun q hq n o' hway => ?_⟩
            · -- a way that the fuel is enough for would have been found
              by_contra hfuel
              have hn : n < fuel := by
                rw [List.length_cons, List.length_cons] at hfuel
                omega
              obtain ⟨found, hfound⟩ := exists_explore_of_way hr hn _
              exact absurd (hfailed.symm.trans hfound) (by simp)
            · have := hfront q hq n o' hway
              rw [List.length_cons]
              omega
        · simp

/-! ## Putting ways together -/

/-- Moves do not depend on what is to be done behind them. -/
theorem Way.append {n m : Nat} {ts us : List Task} {place : Place} {notes : Notes}
    {mid o : Outcome} (h : Way n ts place notes mid) (h' : Way m us mid.place mid.notes o) :
    Way (n + m) (ts ++ us) place notes o := by
  induction h with
  | done =>
    rw [Nat.zero_add]
    exact h'
  | move hm _ ih =>
    rw [Nat.succ_add]
    exact .move hm (List.append_assoc .. ▸ ih h')

/-- A way through two lists of tasks is one through each. -/
theorem Way.split {n : Nat} {ts us : List Task} {place : Place} {notes : Notes} {o : Outcome}
    (h : Way n (ts ++ us) place notes o) :
    ∃ k l mid, Way k ts place notes mid ∧ Way l us mid.place mid.notes o ∧ k + l = n := by
  generalize hall : ts ++ us = all at h
  induction h generalizing ts with
  | done =>
    obtain ⟨rfl, rfl⟩ := List.append_eq_nil_iff.1 hall
    exact ⟨0, 0, _, .done, .done, rfl⟩
  | @move n task rest place notes m o hm h ih =>
    cases ts with
    | nil =>
      obtain rfl : us = task :: rest := hall
      exact ⟨0, n + 1, ⟨place, notes⟩, .done, .move hm h, Nat.zero_add _⟩
    | cons t ts =>
      obtain ⟨rfl, rfl⟩ := List.cons.inj hall
      obtain ⟨k, l, mid, hk, hl, hsum⟩ := ih (List.append_assoc m.tasks ts us)
      exact ⟨k + 1, l, mid, .move hm hk, hl, by omega⟩

/-- The first task and the others. -/
theorem Way.split_cons {n : Nat} {t : Task} {us : List Task} {place : Place} {notes : Notes}
    {o : Outcome} (h : Way n (t :: us) place notes o) :
    ∃ k l mid, Way k [t] place notes mid ∧ Way l us mid.place mid.notes o ∧ k + l = n :=
  @Way.split n [t] us place notes o h

/-! ## Ways through the parts of an expression -/

section Parts

variable {n : Nat} {place : Place} {notes : Notes} {o : Outcome}

/-- Without tasks there is the one way that takes no move. -/
theorem way_nil : Way n [] place notes o ↔ n = 0 ∧ o = ⟨place, notes⟩ := by
  constructor
  · intro h
    cases h
    exact ⟨rfl, rfl⟩
  · rintro ⟨rfl, rfl⟩
    exact .done

/-- A task is taken up by one of the moves from it. -/
theorem way_cons {task : Task} {k : List Task} :
    Way n (task :: k) place notes o ↔
      ∃ m ∈ moves task place notes, ∃ l, Way l (m.tasks ++ k) m.place m.notes o ∧ n = l + 1 := by
  constructor
  · intro h
    cases h with
    | move hm h => exact ⟨_, hm, _, h, rfl⟩
  · rintro ⟨m, hm, l, h, rfl⟩
    exact .move hm h

/-- The empty expression takes one step and no character. -/
theorem way_empty : Way n [.run .empty] place notes o ↔ n = 1 ∧ o = ⟨place, notes⟩ := by
  simp [way_cons, moves, way_nil, and_comm]

/-- A set takes one of its characters. -/
theorem way_chars {s : CharSet} :
    Way n [.run (.chars s)] place notes o ↔
      n = 1 ∧ ∃ c rest, place.rest = c :: rest ∧ s.mem c = true ∧
        o = ⟨{ before := some c, rest, index := place.index + 1 }, notes⟩ := by
  rw [way_cons, moves]
  cases place.rest with
  | nil => simp
  | cons c rest =>
    dsimp only
    by_cases hc : s.mem c = true
    · rw [if_pos hc]
      simp [way_nil, hc, and_comm]
    · rw [if_neg hc]
      simp only [List.not_mem_nil, false_and, exists_false, List.cons.injEq, false_iff]
      rintro ⟨-, d, rest', ⟨rfl, -⟩, hmem, -⟩
      exact hc hmem

/-- One expression and then the other, behind one step that takes them apart. -/
theorem way_cat {a b : Regex} :
    Way n [.run (.cat a b)] place notes o ↔
      ∃ k l mid, Way k [.run a] place notes mid ∧ Way l [.run b] mid.place mid.notes o ∧
        n = k + l + 1 := by
  rw [way_cons]
  simp only [moves, List.mem_singleton, exists_eq_left, List.cons_append, List.nil_append]
  constructor
  · rintro ⟨m, h, rfl⟩
    obtain ⟨k, l, mid, ha, hb, rfl⟩ := h.split_cons
    exact ⟨k, l, mid, ha, hb, rfl⟩
  · rintro ⟨k, l, mid, ha, hb, rfl⟩
    exact ⟨k + l, ha.append hb, rfl⟩

/-- One step decides for an alternative. -/
theorem way_alt {a b : Regex} :
    Way n [.run (.alt a b)] place notes o ↔
      ∃ k, (Way k [.run a] place notes o ∨ Way k [.run b] place notes o) ∧ n = k + 1 := by
  rw [way_cons]
  simp [moves, or_and_right, exists_or]

/-- The end of a group is noted. -/
theorem way_close {g : Nat} :
    Way n [.close g] place notes o ↔ n = 1 ∧ o = ⟨place, (2 * g + 1, place.index) :: notes⟩ := by
  simp [way_cons, moves, way_nil, and_comm]

/-- A group notes where it starts and where it ends. -/
theorem way_group {g : Nat} {r : Regex} :
    Way n [.run (.group g r)] place notes o ↔
      ∃ k mid, Way k [.run r] place ((2 * g, place.index) :: notes) mid ∧
        o = ⟨mid.place, (2 * g + 1, mid.place.index) :: mid.notes⟩ ∧ n = k + 2 := by
  rw [way_cons]
  simp only [moves, List.mem_singleton, exists_eq_left, List.cons_append, List.nil_append]
  constructor
  · rintro ⟨m, h, rfl⟩
    obtain ⟨k, l, mid, hr, hclose, rfl⟩ := h.split_cons
    obtain ⟨rfl, rfl⟩ := way_close.1 hclose
    exact ⟨k, mid, hr, rfl, rfl⟩
  · rintro ⟨k, mid, hr, rfl, rfl⟩
    exact ⟨k + 1, hr.append (way_close.2 ⟨rfl, rfl⟩), rfl⟩

/-- A way through alternatives is one through one of them. -/
theorem exists_way_of_altAll {rs : List Regex} (hrs : rs ≠ [])
    (h : Way n [.run (altAll rs)] place notes o) :
    ∃ r ∈ rs, ∃ k, Way k [.run r] place notes o := by
  induction rs generalizing n with
  | nil => exact absurd rfl hrs
  | cons r rs ih =>
    cases rs with
    | nil => exact ⟨r, List.mem_cons_self, n, h⟩
    | cons r' rs =>
      obtain ⟨k, hfirst | hrest, -⟩ := way_alt.1 h
      · exact ⟨r, List.mem_cons_self, k, hfirst⟩
      · obtain ⟨q, hq, hway⟩ := ih (List.cons_ne_nil r' rs) hrest
        exact ⟨q, List.mem_cons_of_mem r hq, hway⟩

/-- A way through a sequence goes through its first part first. -/
theorem exists_way_of_catAll_cons {r : Regex} {rs : List Regex}
    (h : Way n [.run (catAll (r :: rs))] place notes o) :
    ∃ k l mid, Way k [.run r] place notes mid ∧ Way l [.run (catAll rs)] mid.place mid.notes o := by
  cases rs with
  | nil => exact ⟨n, 1, o, h, way_empty.2 ⟨rfl, rfl⟩⟩
  | cons r' rs =>
    obtain ⟨k, l, mid, hfirst, hrest, -⟩ := way_cat.1 h
    exact ⟨k, l, mid, hfirst, hrest⟩

/-- A way through a sequence goes through its last part last. -/
theorem exists_way_of_catAll_append {rs : List Regex} {r : Regex}
    (h : Way n [.run (catAll (rs ++ [r]))] place notes o) :
    ∃ k l mid, Way k [.run (catAll rs)] place notes mid ∧ Way l [.run r] mid.place mid.notes o := by
  induction rs generalizing n place notes with
  | nil => exact ⟨1, n, ⟨place, notes⟩, way_empty.2 ⟨rfl, rfl⟩, h⟩
  | cons q rs ih =>
    obtain ⟨k, l, mid, hfirst, hrest⟩ := exists_way_of_catAll_cons h
    obtain ⟨k', l', mid', hfront, hlast⟩ := ih hrest
    cases rs with
    | nil =>
      obtain ⟨-, rfl⟩ := way_empty.1 hfront
      exact ⟨k, l', mid, hfirst, hlast⟩
    | cons q' rs => exact ⟨_, l', mid', way_cat.2 ⟨k, k', mid, hfirst, hfront, rfl⟩, hlast⟩

end Parts

/-! ## What a way takes and what it notes -/

/-- Whether one place is reached from another one by taking a part of the text. -/
def Place.Took (p : Place) (u : List Char) (q : Place) : Prop :=
  p.rest = u ++ q.rest ∧ q.index = p.index + u.length

/-- A place is reached from itself by taking nothing. -/
theorem Place.Took.refl (p : Place) : p.Took [] p := ⟨rfl, rfl⟩

/-- One part of the text and the next one. -/
theorem Place.Took.trans {p q r : Place} {u v : List Char} (h : p.Took u q) (h' : q.Took v r) :
    p.Took (u ++ v) r := by
  refine ⟨?_, ?_⟩
  · rw [h.1, h'.1, List.append_assoc]
  · rw [h'.2, h.2, List.length_append, Nat.add_assoc]

/-- The numbers of the groups in an expression. -/
def groupIndices : Regex → List Nat
  | .empty => []
  | .chars _ => []
  | .look _ => []
  | .cat a b => a.groupIndices ++ b.groupIndices
  | .alt a b => a.groupIndices ++ b.groupIndices
  | .group g r => g :: r.groupIndices
  | .repeated r _ _ _ => r.groupIndices

/-- The numbers of the groups that a task can note. -/
def Task.groupIndices : Task → List Nat
  | .run r => r.groupIndices
  | .again r _ => r.groupIndices
  | .close g => [g]

/-- Whether notes are about some groups only. -/
def Notes.About (groups : List Nat) (new : Notes) : Prop :=
  ∀ note ∈ new, ∃ g ∈ groups, note.1 = 2 * g ∨ note.1 = 2 * g + 1

/-- Whether a move takes a part of the text, notes only groups of a task and leaves only such to be
noted. -/
structure Move.Follows (task : Task) (place : Place) (notes : Notes) (m : Move) : Prop where
  took : ∃ u, place.Took u m.place
  notes : ∃ new : Notes, m.notes = new ++ notes ∧ new.About task.groupIndices
  tasks : ∀ t ∈ m.tasks, t.groupIndices ⊆ task.groupIndices

section Follows

variable {task : Task} {place : Place} {notes : Notes}

/-- A move that takes and notes nothing. -/
theorem Move.Follows.stay {tasks : List Task}
    (h : ∀ t ∈ tasks, t.groupIndices ⊆ task.groupIndices) :
    Move.Follows task place notes ⟨tasks, place, notes⟩ where
  took := ⟨[], .refl place⟩
  notes := ⟨[], rfl, fun _ hnote => absurd hnote List.not_mem_nil⟩
  tasks := h

/-- A move that notes the start or the end of a group. -/
theorem Move.Follows.note {tasks : List Task} {g k : Nat} (hg : g ∈ task.groupIndices)
    (hk : k = 2 * g ∨ k = 2 * g + 1) (h : ∀ t ∈ tasks, t.groupIndices ⊆ task.groupIndices) :
    Move.Follows task place notes ⟨tasks, place, (k, place.index) :: notes⟩ where
  took := ⟨[], .refl place⟩
  notes := ⟨[(k, place.index)], rfl, fun note hnote => by
    obtain rfl := List.mem_singleton.1 hnote
    exact ⟨g, hg, hk⟩⟩
  tasks := h

/-- Every move does what is said of moves. -/
theorem follows_of_mem_moves {m : Move} (h : m ∈ moves task place notes) :
    m.Follows task place notes := by
  -- moves that stay are the same, or are left, for all the tasks but those of `chars` and groups
  have hstay : ∀ {tasks : List Task}, (∀ t ∈ tasks, t.groupIndices ⊆ task.groupIndices) →
      m = ⟨tasks, place, notes⟩ → m.Follows task place notes := by
    rintro tasks htasks rfl
    exact .stay htasks
  unfold moves at h
  split at h
  · next g =>
    obtain rfl := List.mem_singleton.1 h
    exact .note List.mem_cons_self (.inr rfl) (by simp)
  case h_5 s =>
    split at h
    · cases h
    · next c rest hrest =>
      split at h
      · obtain rfl := List.mem_singleton.1 h
        refine ⟨⟨[c], hrest, rfl⟩, ⟨[], rfl, fun _ hnote => absurd hnote List.not_mem_nil⟩, ?_⟩
        simp
      · cases h
  case h_6 l =>
    split at h
    · exact hstay (by simp) (List.mem_singleton.1 h)
    · cases h
  case h_9 g r =>
    obtain rfl := List.mem_singleton.1 h
    exact .note List.mem_cons_self (.inl rfl) (by simp [Task.groupIndices, Regex.groupIndices])
  all_goals
    simp only [List.mem_cons, List.not_mem_nil, or_false] at h
    first
    | rcases h with h | h <;> exact hstay (by simp [Task.groupIndices, Regex.groupIndices]) h
    | exact hstay (by simp [Task.groupIndices, Regex.groupIndices]) h

end Follows

/-- A way takes a part of the text. -/
theorem Way.exists_took {n : Nat} {tasks : List Task} {place : Place} {notes : Notes} {o : Outcome}
    (h : Way n tasks place notes o) : ∃ u, place.Took u o.place := by
  induction h with
  | done => exact ⟨[], .refl _⟩
  | move hm _ ih =>
    obtain ⟨u, hu⟩ := (follows_of_mem_moves hm).took
    obtain ⟨v, hv⟩ := ih
    exact ⟨u ++ v, hu.trans hv⟩

/-- Only the groups of the tasks are noted, and the notes so far stay. -/
theorem Way.exists_notes {n : Nat} {tasks : List Task} {place : Place} {notes : Notes} {o : Outcome}
    (h : Way n tasks place notes o) :
    ∃ new : Notes, o.notes = new ++ notes ∧ new.About (tasks.flatMap Task.groupIndices) := by
  induction h with
  | done => exact ⟨[], rfl, fun _ hnote => absurd hnote List.not_mem_nil⟩
  | @move n task k place notes m o hm _ ih =>
    obtain ⟨new, hnew, habout⟩ := ih
    obtain ⟨-, ⟨first, hfirst, hgroup⟩, htasks⟩ := follows_of_mem_moves hm
    refine ⟨new ++ first, by rw [hnew, hfirst, List.append_assoc], fun note hnote => ?_⟩
    rw [List.flatMap_cons]
    rcases List.mem_append.1 hnote with hnote | hnote
    · obtain ⟨g, hg, hkey⟩ := habout note hnote
      refine ⟨g, ?_, hkey⟩
      rw [List.flatMap_append] at hg
      rcases List.mem_append.1 hg with hg | hg
      · obtain ⟨t, ht, hg⟩ := List.mem_flatMap.1 hg
        exact List.mem_append_left _ (htasks t ht hg)
      · exact List.mem_append_right _ hg
    · obtain ⟨g, hg, hkey⟩ := hgroup note hnote
      exact ⟨g, List.mem_append_left _ hg, hkey⟩

end Parley.Regex
