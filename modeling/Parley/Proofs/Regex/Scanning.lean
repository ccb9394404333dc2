import Parley.Proofs.Regex.Ways

/-!
# Matches in a text

The matches in a text are found from left to right, each at a place of the text, and each is the end
of a way through the expression.

Main results:

* `exists_way_of_matchAt` and `exists_matchAt_of_way` — matches at a place are ways from there;
* `exists_took_of_mem_allMatches` — where the matches of a text are;
* `replaceFrom_of_none` and `replaceFrom_of_some` — what becomes of a text from a place on, with and
  without a match there.
-/

namespace Parley.Regex

/-! ## Matches at a place -/

/-- What is known of a match: a way leads from its start to its end. -/
theorem exists_way_of_matchAt {r : Regex} {p : Place} {m : Match} (h : matchAt r p = some m) :
    m.start = p ∧ ∃ n, Way n [.run r] p [] ⟨m.stop, m.notes⟩ := by
  unfold matchAt at h
  split at h
  · next o ho =>
    obtain rfl := Option.some.inj h
    obtain ⟨n, -, hway⟩ := exists_way_of_explore ho
    exact ⟨rfl, n, hway⟩
  · cases h

/-- If matches never come to the same place twice, every way that is not too long is a reason for
a match. -/
theorem exists_matchAt_of_way {r : Regex} (hr : r.retraces = false) {p : Place} {n : Nat}
    {o : Outcome} (h : Way n [.run r] p [] o) (hn : n < (p.rest.length + 1) * (r.weight + 2)) :
    ∃ m, matchAt r p = some m := by
  obtain ⟨found, hfound⟩ := exists_explore_of_way h hn []
  refine ⟨⟨p, found.place, found.notes⟩, ?_⟩
  rw [matchAt, hr, hfound]

/-- If matches never come to the same place twice, a match of alternatives is one of the first of
them that there is a way through, if the way is not too long. -/
theorem exists_first_of_matchAt {rs : List Regex} (hrs : rs ≠ [])
    (hr : (altAll rs).retraces = false) {p : Place} {m : Match}
    (h : matchAt (altAll rs) p = some m) :
    ∃ front r behind, rs = front ++ r :: behind ∧
      (∃ n, Way n [.run r] p [] ⟨m.stop, m.notes⟩) ∧
      ∀ q ∈ front, ∀ n o, Way n [.run q] p [] o →
        (p.rest.length + 1) * ((altAll rs).weight + 2) ≤ n + rs.length := by
  unfold matchAt at h
  split at h
  · next o ho =>
    obtain rfl := Option.some.inj h
    rw [hr] at ho
    exact exists_first_of_explore hrs ho
  · cases h

/-- The text of a match is what was taken from its start to its end. -/
theorem Match.took_text {r : Regex} {p : Place} {m : Match} (h : matchAt r p = some m) :
    p.Took m.text m.stop := by
  obtain ⟨rfl, n, hway⟩ := exists_way_of_matchAt h
  obtain ⟨u, hrest, hindex⟩ := hway.exists_took
  have htext : m.text = u := by
    rw [Match.text, hindex, Nat.add_sub_cancel_left, hrest, List.take_left]
  exact ⟨htext ▸ hrest, htext ▸ hindex⟩

theorem Match.isEmpty_eq {r : Regex} {p : Place} {m : Match} (h : matchAt r p = some m) :
    m.isEmpty = m.text.isEmpty := by
  obtain ⟨-, hindex⟩ := Match.took_text h
  obtain ⟨rfl, -⟩ := exists_way_of_matchAt h
  rw [Match.isEmpty, hindex]
  cases m.text with
  | nil => simp
  | cons c u => simp

/-! ## Matches from a place on -/

theorem Place.took_advance {p q : Place} (h : p.advance? = some q) : ∃ c, p.Took [c] q := by
  unfold advance? at h
  split at h
  · cases h
  · next c rest hrest =>
    obtain rfl := Option.some.inj h
    exact ⟨c, hrest, rfl⟩

section Steps

variable {r : Regex} {p : Place} {fuel : Nat} {fresh : Bool}

/-- A match that counts is followed by the matches from its end on. -/
theorem matchesFrom_of_some {m : Match} (h : matchAt r p = some m)
    (hcounts : (fresh || !m.isEmpty) = true) :
    matchesFrom r (fuel + 1) fresh p = m :: matchesFrom r fuel false m.stop := by
  rw [matchesFrom, h]
  exact if_pos hcounts

/-- Without a match that counts, the search goes on behind the next character. -/
theorem matchesFrom_of_not (h : ∀ m, matchAt r p = some m → (fresh || !m.isEmpty) = false) :
    matchesFrom r (fuel + 1) fresh p = (p.advance?.map (matchesFrom r fuel true)).getD [] := by
  rw [matchesFrom]
  cases hm : matchAt r p with
  | none => cases p.advance? <;> rfl
  | some m =>
    dsimp only
    rw [h m hm]
    cases p.advance? <;> rfl

end Steps

section Places

variable {r : Regex} {R : Place → Place → Prop}

/-- Every match from a place on is one at a place that the search comes to: it goes on to the next
character or behind a match. -/
theorem of_mem_matchesFrom (hrefl : ∀ p, R p p) (htrans : ∀ {p q s}, R p q → R q s → R p s)
    (hadvance : ∀ {p q}, p.advance? = some q → R p q)
    (hstop : ∀ {p m}, matchAt r p = some m → R p m.stop) {fuel : Nat} {fresh : Bool} {p : Place}
    {m : Match} (h : m ∈ matchesFrom r fuel fresh p) :
    R p m.start ∧ matchAt r m.start = some m := by
  induction fuel generalizing fresh p with
  | zero => cases h
  | succ fuel ih =>
    -- a match that counts is followed by those behind it; without one the scan goes on at the next
    -- place
    by_cases hcounts : ∃ first, matchAt r p = some first ∧ (fresh || !first.isEmpty) = true
    · obtain ⟨first, hfirst, hcounts⟩ := hcounts
      rw [matchesFrom_of_some hfirst hcounts] at h
      rcases List.mem_cons.1 h with rfl | h
      · obtain ⟨hstart, -⟩ := exists_way_of_matchAt hfirst
        exact ⟨hstart ▸ hrefl _, hstart ▸ hfirst⟩
      · exact (ih h).imp_left (htrans (hstop hfirst))
    · rw [matchesFrom_of_not fun first hfirst =>
        Bool.eq_false_iff.2 fun hyes => hcounts ⟨first, hfirst, hyes⟩] at h
      cases hq : p.advance? with
      | none =>
        rw [hq] at h
        cases h
      | some q =>
        rw [hq] at h
        exact (ih h).imp_left (htrans (hadvance hq))

end Places

/-- Every match from a place on is one at a place behind. -/
theorem exists_took_of_mem_matchesFrom {r : Regex} {fuel : Nat} {fresh : Bool} {p : Place}
    {m : Match} (h : m ∈ matchesFrom r fuel fresh p) :
    ∃ u, p.Took u m.start ∧ matchAt r m.start = some m := by
  have htrans : ∀ {p q s : Place}, (∃ u, p.Took u q) → (∃ u, q.Took u s) → ∃ u, p.Took u s := by
    rintro p q s ⟨u, hu⟩ ⟨v, hv⟩
    exact ⟨u ++ v, hu.trans hv⟩
  obtain ⟨⟨u, hu⟩, hm⟩ := of_mem_matchesFrom (R := fun p q => ∃ u, p.Took u q)
    (fun p => ⟨[], .refl p⟩) htrans (fun hq => (Place.took_advance hq).elim fun c hc => ⟨[c], hc⟩)
    (fun hm => ⟨_, Match.took_text hm⟩) h
  exact ⟨u, hu, hm⟩

/-- Every match in a text is one at a place of the text. -/
theorem exists_took_of_mem_allMatches {r : Regex} {text : List Char} {m : Match}
    (h : m ∈ r.allMatches text) :
    ∃ front, (Place.ofText text).Took front m.start ∧ matchAt r m.start = some m :=
  exists_took_of_mem_matchesFrom h

/-- A character in front of the first match stays. -/
theorem replaceMatches_advance (replacement : Match → List Char) {p q : Place} {c : Char}
    (hpq : p.Took [c] q) {ms : List Match} (hms : ∀ m ∈ ms.head?, q.index ≤ m.start.index) :
    replaceMatches replacement p ms = c :: replaceMatches replacement q ms := by
  obtain ⟨hrest, hindex⟩ := hpq
  cases ms with
  | nil => exact hrest
  | cons m ms =>
    have hm := hms m rfl
    simp only [List.length_singleton] at hindex
    rw [replaceMatches, replaceMatches, hrest,
      show m.start.index - p.index = m.start.index - q.index + 1 by omega]
    rfl

/-! ## Replacing from a place on -/

/-- A text from a place on, with the matches from there on replaced. -/
def replaceFrom (r : Regex) (replacement : Match → List Char) (fuel : Nat) (fresh : Bool)
    (p : Place) : List Char :=
  replaceMatches replacement p (matchesFrom r fuel fresh p)

theorem replaceAll_eq (r : Regex) (replacement : Match → List Char) (text : List Char) :
    r.replaceAll replacement text =
      replaceFrom r replacement (2 * text.length + 2) true (Place.ofText text) := rfl

section Replacing

variable {r : Regex} {replacement : Match → List Char} {p : Place} {n : Nat} {fresh : Bool}

/-- At the end of the text, nothing is left without a match. -/
theorem replaceFrom_of_end (h : matchAt r p = none) (hrest : p.rest = []) :
    replaceFrom r replacement (n + 1) fresh p = [] := by
  rw [replaceFrom, matchesFrom, h]
  simp [Place.advance?, hrest, replaceMatches]

/-- Without a match, the next character stays. -/
theorem replaceFrom_of_none {c : Char} {rest : List Char} (h : matchAt r p = none)
    (hrest : p.rest = c :: rest) :
    ∃ q, q.rest = rest ∧ replaceFrom r replacement (n + 1) fresh p =
      c :: replaceFrom r replacement n true q := by
  have hadvance : p.advance? = some { before := some c, rest, index := p.index + 1 } := by
    rw [Place.advance?, hrest]
  refine ⟨{ before := some c, rest, index := p.index + 1 }, rfl, ?_⟩
  rw [replaceFrom, matchesFrom, h, hadvance]
  refine replaceMatches_advance replacement ⟨hrest, rfl⟩ fun m hm => ?_
  obtain ⟨u, hu, -⟩ := exists_took_of_mem_matchesFrom (List.mem_of_mem_head? hm)
  rw [hu.2]
  exact Nat.le_add_right _ _

/-- A match that takes something is replaced. -/
theorem replaceFrom_of_some {m : Match} (h : matchAt r p = some m) (hm : m.text ≠ []) :
    replaceFrom r replacement (n + 1) fresh p =
      replacement m ++ replaceFrom r replacement n false m.stop := by
  have hempty : m.isEmpty = false := by
    rw [Match.isEmpty_eq h, List.isEmpty_eq_false_iff]
    exact hm
  obtain ⟨hstart, -⟩ := exists_way_of_matchAt h
  rw [replaceFrom, matchesFrom, h]
  dsimp only
  rw [hempty, Bool.not_false, Bool.or_true, if_pos rfl, replaceMatches, hstart, Nat.sub_self]
  rfl

end Replacing

end Parley.Regex
