import Parley.Proofs.Regex.Guarding

/-!
# Other numbers for groups

An expression means the same when the numbers of all its groups are raised: the same is matched, and
what a group took is found under its new number. No group below the new numbers takes part.

Main results:

* `explore_raise` — an exploration with raised numbers;
* `matchAt_raise` — and so the match at a place;
* `Match.group?_raise`, `Match.group?_raise_of_lt` — what its groups took.
-/

namespace Parley.Regex

/-! ## Raising numbers -/

/-- An expression with the numbers of its groups raised by `k`. -/
def raise (k : Nat) : Regex → Regex
  | .empty => .empty
  | .chars s => .chars s
  | .look l => .look l
  | .cat a b => .cat (a.raise k) (b.raise k)
  | .alt a b => .alt (a.raise k) (b.raise k)
  | .group g r => .group (g + k) (r.raise k)
  | .repeated r min max? greedy => .repeated (r.raise k) min max? greedy

def Task.raise (k : Nat) : Task → Task
  | .run r => .run (r.raise k)
  | .again r greedy => .again (r.raise k) greedy
  | .close g => .close (g + k)

def Notes.raise (k : Nat) (notes : Notes) : Notes :=
  notes.map fun note => (note.1 + 2 * k, note.2)

def Move.raise (k : Nat) (m : Move) : Move :=
  { tasks := m.tasks.map (Task.raise k), place := m.place, notes := Notes.raise k m.notes }

def Outcome.raise (k : Nat) (o : Outcome) : Outcome :=
  { place := o.place, notes := Notes.raise k o.notes }

def Match.raise (k : Nat) (m : Match) : Match :=
  { start := m.start, stop := m.stop, notes := Notes.raise k m.notes }

def Tried.raise (k : Nat) (tried : Tried) : Tried :=
  tried.map fun e => (e.1, e.2.map (Task.raise k))

/-- The same for what an exploration comes to. -/
def raiseResult (k : Nat) : Except Tried Outcome → Except Tried Outcome
  | .ok o => .ok (o.raise k)
  | .error tried => .error (Tried.raise k tried)

theorem raise_injective (k : Nat) : Function.Injective (raise k) := by
  intro a b h
  induction a generalizing b with
  | empty => cases b <;> simp_all [raise]
  | chars s => cases b <;> simp_all [raise]
  | look l => cases b <;> simp_all [raise]
  | cat a a' iha iha' =>
    cases b with
    | cat b b' =>
      obtain ⟨h, h'⟩ := Regex.cat.inj h
      rw [iha h, iha' h']
    | _ => cases h
  | alt a a' iha iha' =>
    cases b with
    | alt b b' =>
      obtain ⟨h, h'⟩ := Regex.alt.inj h
      rw [iha h, iha' h']
    | _ => cases h
  -- only groups are renumbered, each by the same amount
  | group g r ih =>
    cases b with
    | group g' r' =>
      obtain ⟨hg, h⟩ := Regex.group.inj h
      rw [ih h, Nat.add_right_cancel hg]
    | _ => cases h
  | repeated r min max? greedy ih =>
    cases b with
    | repeated r' min' max?' greedy' =>
      obtain ⟨hbody, rfl, rfl, rfl⟩ := Regex.repeated.inj h
      rw [ih hbody]
    | _ => cases h

theorem Task.raise_injective (k : Nat) : Function.Injective (Task.raise k) := by
  intro t u h
  cases t <;> cases u <;> simp only [Task.raise, Task.run.injEq, Task.again.injEq,
    Task.close.injEq, reduceCtorEq] at h
  · rw [Regex.raise_injective k h]
  · rw [Regex.raise_injective k h.1, h.2]
  · rw [Nat.add_right_cancel h]

@[simp] theorem weight_raise (k : Nat) (r : Regex) : (r.raise k).weight = r.weight := by
  induction r <;> simp_all [raise, weight]

/-! ## Exploring with raised numbers -/

theorem moves_raise (k : Nat) (task : Task) (q : Place) (notes : Notes) :
    moves (task.raise k) q (notes.raise k) = (moves task q notes).map (Move.raise k) := by
  -- the notes of a group have the even and the odd key of its number
  have hkey : ∀ g, 2 * (g + k) = 2 * g + 2 * k := fun g => Nat.mul_add 2 g k
  cases task with
  | close g => simp [moves, Task.raise, Move.raise, Notes.raise, hkey, Nat.add_right_comm]
  | again r greedy => cases greedy <;> rfl
  | run r =>
    cases r with
    | chars s =>
      show moves (.run (.chars s)) q (notes.raise k) = _
      rw [moves, moves]
      cases q.rest with
      | nil => rfl
      | cons c rest =>
        dsimp only
        split <;> rfl
    | look l =>
      show moves (.run (.look l)) q (notes.raise k) = _
      rw [moves, moves]
      split <;> rfl
    | group g r => simp [moves, Task.raise, raise, Move.raise, Notes.raise, hkey]
    | repeated r min max? greedy =>
      rcases min with _ | _ | n
      · rcases max? with _ | _ | m <;> cases greedy <;> rfl
      · rcases max? with _ | m <;> rfl
      · rfl
    | _ => rfl

theorem mem_raise_iff {k i : Nat} {tasks : List Task} {tried : Tried} :
    (i, tasks.map (Task.raise k)) ∈ tried.raise k ↔ (i, tasks) ∈ tried := by
  have hinjective : Function.Injective fun e : Nat × List Task =>
      (e.1, e.2.map (Task.raise k)) := by
    intro d e h
    obtain ⟨hindex, htasks⟩ := Prod.mk.inj h
    exact Prod.ext hindex (List.map_injective_iff.2 (Task.raise_injective k) htasks)
  exact List.mem_map_of_injective (a := (i, tasks)) hinjective

/-- **Raised numbers change nothing but the numbers.** -/
theorem explore_raise (k : Nat) (guarded : Bool) (fuel : Nat) (tasks : List Task) (tried : Tried)
    (q : Place) (notes : Notes) :
    explore guarded fuel (tasks.map (Task.raise k)) (tried.raise k) q (notes.raise k) =
      raiseResult k (explore guarded fuel tasks tried q notes) := by
  induction fuel generalizing tasks tried q notes with
  | zero => cases tasks <;> rfl
  | succ fuel ih =>
    cases tasks with
    | nil => rfl
    | cons task rest =>
      have htries : ∀ (ms : List Move) (tried : Tried),
          tryMoves guarded fuel (rest.map (Task.raise k)) (ms.map (Move.raise k))
              (tried.raise k) =
            raiseResult k (tryMoves guarded fuel rest ms tried) := by
        intro ms
        induction ms with
        | nil => exact fun tried => rfl
        | cons m ms ihms =>
          intro tried
          rw [List.map_cons, tryMoves, tryMoves]
          have hfirst := ih (m.tasks ++ rest) tried m.place m.notes
          rw [List.map_append] at hfirst
          dsimp only [Move.raise]
          rw [hfirst]
          cases explore guarded fuel (m.tasks ++ rest) tried m.place m.notes with
          | ok o => rfl
          | error t => exact ihms t
      -- no two states get the same numbers, so that the guard answers the same
      have hcontains : (tried.raise k).contains (q.index, (task :: rest).map (Task.raise k)) =
          tried.contains (q.index, task :: rest) := by
        rw [Bool.eq_iff_iff, List.contains_iff_mem, List.contains_iff_mem, mem_raise_iff]
      have htriedWith : triedWith guarded ((task :: rest).map (Task.raise k)) q (tried.raise k) =
          (triedWith guarded (task :: rest) q tried).raise k := by
        cases guarded <;> rfl
      rw [List.map_cons] at hcontains htriedWith ⊢
      rw [explore_cons, explore_cons, hcontains, htriedWith, moves_raise, htries]
      split <;> rfl

/-- An expression with raised numbers matches the same. -/
theorem matchAt_raise (k : Nat) (r : Regex) (p : Place) :
    matchAt (r.raise k) p = (matchAt r p).map (Match.raise k) := by
  -- the fuel is the same, since the weight does not depend on the numbers
  have hexplore := explore_raise k true ((p.rest.length + 1) * (r.weight + 2)) [.run r] [] p []
  rw [matchAt_eq, matchAt_eq, weight_raise]
  change explore true _ [.run (r.raise k)] [] p [] = _ at hexplore
  rw [hexplore]
  cases explore true ((p.rest.length + 1) * (r.weight + 2)) [.run r] [] p [] <;> rfl

/-! ## Groups of a match with raised numbers -/

namespace Match

theorem text_raise (k : Nat) (m : Match) : (m.raise k).text = m.text := rfl

theorem start_raise (k : Nat) (m : Match) : (m.raise k).start = m.start := rfl

theorem notes_raise (k : Nat) (m : Match) : (m.raise k).notes = m.notes.raise k := rfl

theorem lookup_raise (k key : Nat) (notes : Notes) :
    (notes.raise k).lookup (key + 2 * k) = notes.lookup key := by
  induction notes with
  | nil => rfl
  | cons note notes ih =>
    have hcons : Notes.raise k (note :: notes) =
        (note.1 + 2 * k, note.2) :: Notes.raise k notes := rfl
    have hkey : (key + 2 * k == note.1 + 2 * k) = (key == note.1) := by
      rw [Bool.eq_iff_iff, beq_iff_eq, beq_iff_eq, Nat.add_right_cancel_iff]
    rw [hcons, List.lookup_cons, List.lookup_cons, hkey, ih]

theorem lookup_raise_of_lt {k key : Nat} (h : key < 2 * k) (notes : Notes) :
    (notes.raise k).lookup key = none := by
  rw [List.lookup_eq_none_iff]
  intro note hnote
  obtain ⟨old, -, rfl⟩ := List.mem_map.1 hnote
  rw [bne_iff_ne]
  dsimp only
  omega

/-- What a group took is found under its new number. -/
theorem group?_raise (k g : Nat) (m : Match) : (m.raise k).group? (g + k) = m.group? g := by
  have hstart : 2 * (g + k) = 2 * g + 2 * k := Nat.mul_add 2 g k
  have hstop : 2 * (g + k) + 1 = 2 * g + 1 + 2 * k := by omega
  rw [group?, group?, notes_raise, start_raise, hstop, hstart, lookup_raise, lookup_raise]

/-- No group below the new numbers takes part. -/
theorem group?_raise_of_lt {k g : Nat} (h : g < k) (m : Match) : (m.raise k).group? g = none := by
  rw [group?, notes_raise, lookup_raise_of_lt (by omega)]

end Match

end Parley.Regex
