import Parley.Proofs.Regex.Scanning
import Parley.Proofs.Regex.States

/-!
# Comparing matches

A text is searched from left to right, and every place that is searched is one of the text. So what
two expressions make of a text is the same if it is the same at all of its places, and there is
nothing to be found in a text where nothing was found.

Main results:

* `matchAt_eq_none_of_allMatches_eq_nil` — without a match there is none at any place;
* `replaceAll_congr` — two replacements that agree at all places;
* `replaceAll_of_text` — a text with its matches replaced by themselves.
-/

namespace Parley.Regex

/-! ## Places of a text -/

namespace Place

theorem advance_add (p : Place) (m n : Nat) : p.advance (m + n) = (p.advance m).advance n := by
  induction m generalizing p with
  | zero => rw [Nat.zero_add, advance]
  | succ m ih =>
    obtain ⟨before, rest, index⟩ := p
    rw [Nat.succ_add]
    cases rest with
    | nil => cases n <;> rfl
    | cons c rest => exact ih _

theorem Reaches.trans {p q r : Place} (h : p.Reaches q) (h' : q.Reaches r) : p.Reaches r := by
  obtain ⟨m, hm, rfl⟩ := h
  obtain ⟨n, hn, rfl⟩ := h'
  rw [length_rest_advance] at hn
  exact ⟨m + n, by omega, (advance_add p m n).symm⟩

theorem reaches_of_advance? {p q : Place} (h : p.advance? = some q) : p.Reaches q := by
  unfold advance? at h
  split at h
  · cases h
  · next c rest hrest =>
    obtain rfl := Option.some.inj h
    exact (Reaches.refl p).next hrest

end Place

theorem Way.reaches {p : Place} {n : Nat} {tasks : List Task} {place : Place} {notes : Notes}
    {o : Outcome} (h : Way n tasks place notes o) (hp : p.Reaches place) : p.Reaches o.place := by
  induction h with
  | done => exact hp
  | move hm _ ih => exact ih (hp.of_mem_moves hm)

theorem reaches_stop {r : Regex} {p : Place} {m : Match} (h : matchAt r p = some m) :
    p.Reaches m.stop := by
  obtain ⟨-, n, hway⟩ := exists_way_of_matchAt h
  exact hway.reaches (.refl p)

/-- Every match in a text is one at a place that is reached from its start. -/
theorem reaches_of_mem_allMatches {r : Regex} {text : List Char} {m : Match}
    (h : m ∈ r.allMatches text) :
    (Place.ofText text).Reaches m.start ∧ matchAt r m.start = some m :=
  of_mem_matchesFrom Place.Reaches.refl Place.Reaches.trans Place.reaches_of_advance? reaches_stop h

/-! ## Without matches -/

theorem matchAt_eq_none_of_matchesFrom_eq_nil {r : Regex} {fuel : Nat} {p q : Place}
    (h : matchesFrom r fuel true p = []) (hfuel : p.rest.length < fuel) (hq : p.Reaches q) :
    matchAt r q = none := by
  induction fuel generalizing p with
  | zero => omega
  | succ fuel ih =>
    -- a match counts at a fresh place, so that it would head the list
    have hnone : matchAt r p = none := by
      cases hm : matchAt r p with
      | none => rfl
      | some m =>
        rw [matchesFrom_of_some hm rfl] at h
        cases h
    obtain ⟨n, hn, rfl⟩ := hq
    cases n with
    | zero => exact hnone
    | succ n =>
      obtain ⟨before, rest, index⟩ := p
      cases rest with
      | nil => cases hn
      | cons c rest =>
        rw [matchesFrom, hnone] at h
        exact ih h (Nat.lt_of_succ_lt_succ hfuel) ⟨n, Nat.le_of_succ_le_succ hn, rfl⟩

/-- If nothing is found in a text, there is no match at any place of it. -/
theorem matchAt_eq_none_of_allMatches_eq_nil {r : Regex} {text : List Char} {q : Place}
    (h : r.allMatches text = []) (hq : (Place.ofText text).Reaches q) : matchAt r q = none :=
  matchAt_eq_none_of_matchesFrom_eq_nil h
    (show text.length < 2 * text.length + 2 by omega) hq

/-! ## Two expressions -/

section Comparing

variable {r r' : Regex} {replacement replacement' : Match → List Char}

/-- Whether two matches are at the same place and replaced by the same text. -/
def Alike (replacement replacement' : Match → List Char) (m m' : Match) : Prop :=
  m.start = m'.start ∧ m.stop = m'.stop ∧ replacement m = replacement' m'

theorem Alike.isEmpty_eq {m m' : Match} (h : Alike replacement replacement' m m') :
    m.isEmpty = m'.isEmpty := by
  rw [Match.isEmpty, Match.isEmpty, h.1, h.2.1]

/-- If two expressions agree at all places from one on, so do their matches. -/
theorem forall₂_matchesFrom {p : Place}
    (h : ∀ q, p.Reaches q →
      Option.Rel (Alike replacement replacement') (matchAt r q) (matchAt r' q))
    (fuel : Nat) (fresh : Bool) :
    List.Forall₂ (Alike replacement replacement') (matchesFrom r fuel fresh p)
      (matchesFrom r' fuel fresh p) := by
  induction fuel generalizing p fresh with
  | zero => exact .nil
  | succ fuel ih =>
    have hp := h p (.refl p)
    by_cases hcounts : ∃ m, matchAt r p = some m ∧ (fresh || !m.isEmpty) = true
    · obtain ⟨m, hm, hcounts⟩ := hcounts
      rw [hm] at hp
      cases hm' : matchAt r' p with
      | none =>
        rw [hm'] at hp
        cases hp
      | some m' =>
        rw [hm'] at hp
        cases hp with
        | some halike =>
          -- whether a match counts depends on its ends only
          have hcounts' : (fresh || !m'.isEmpty) = true := by
            rw [← halike.isEmpty_eq]
            exact hcounts
          rw [matchesFrom_of_some hm hcounts, matchesFrom_of_some hm' hcounts', ← halike.2.1]
          exact .cons halike (ih (fun q hq => h q ((reaches_stop hm).trans hq)) false)
    · have hskips : ∀ m, matchAt r p = some m → (fresh || !m.isEmpty) = false :=
        fun m hm => Bool.eq_false_iff.2 fun hyes => hcounts ⟨m, hm, hyes⟩
      have hskips' : ∀ m', matchAt r' p = some m' → (fresh || !m'.isEmpty) = false := by
        intro m' hm'
        rw [hm'] at hp
        cases hm : matchAt r p with
        | none =>
          rw [hm] at hp
          cases hp
        | some m =>
          rw [hm] at hp
          cases hp with
          | some halike => exact halike.isEmpty_eq ▸ hskips m hm
      rw [matchesFrom_of_not hskips, matchesFrom_of_not hskips']
      cases hq : p.advance? with
      | none => exact .nil
      | some q => exact ih (fun q' hq' => h q' ((Place.reaches_of_advance? hq).trans hq')) true

theorem replaceMatches_congr {ms ms' : List Match}
    (h : List.Forall₂ (Alike replacement replacement') ms ms') (p : Place) :
    replaceMatches replacement p ms = replaceMatches replacement' p ms' := by
  induction h generalizing p with
  | nil => rfl
  | cons halike _ ih =>
    obtain ⟨hstart, hstop, hsame⟩ := halike
    rw [replaceMatches, replaceMatches, hstart, hstop, hsame, ih]

/-- If two expressions agree at all places of a text, what is made of it is the same. -/
theorem replaceAll_congr {text : List Char}
    (h : ∀ q, (Place.ofText text).Reaches q →
      Option.Rel (Alike replacement replacement') (matchAt r q) (matchAt r' q)) :
    r.replaceAll replacement text = r'.replaceAll replacement' text :=
  replaceMatches_congr (forall₂_matchesFrom h _ _) _

/-! ## Matches replaced by themselves -/

theorem replaceFrom_of_text (h : ∀ m, matchAt r m.start = some m → replacement m = m.text)
    (fuel : Nat) (fresh : Bool) (p : Place) :
    replaceFrom r replacement fuel fresh p = p.rest := by
  induction fuel generalizing fresh p with
  | zero => rfl
  | succ fuel ih =>
    rw [replaceFrom]
    by_cases hcounts : ∃ m, matchAt r p = some m ∧ (fresh || !m.isEmpty) = true
    · obtain ⟨m, hm, hcounts⟩ := hcounts
      obtain ⟨rfl, -⟩ := exists_way_of_matchAt hm
      rw [matchesFrom_of_some hm hcounts, replaceMatches, h m hm, Nat.sub_self, List.take_zero,
        List.nil_append]
      exact (congrArg (m.text ++ ·) (ih false m.stop)).trans (Match.took_text hm).1.symm
    · rw [matchesFrom_of_not fun m hm =>
        Bool.eq_false_iff.2 fun hyes => hcounts ⟨m, hm, hyes⟩]
      cases hq : p.advance? with
      | none => rfl
      | some q =>
        obtain ⟨c, hc⟩ := Place.took_advance hq
        rw [Option.map_some, Option.getD_some, replaceMatches_advance replacement hc]
        · exact (congrArg (c :: ·) (ih true q)).trans hc.1.symm
        · -- the matches behind do not begin before the character
          intro m hm
          obtain ⟨u, hu, -⟩ := exists_took_of_mem_matchesFrom (List.mem_of_mem_head? hm)
          rw [hu.2]
          exact Nat.le_add_right _ _

/-- A text whose matches are replaced by themselves stays as it is. -/
theorem replaceAll_of_text (h : ∀ m, matchAt r m.start = some m → replacement m = m.text)
    (text : List Char) : r.replaceAll replacement text = text :=
  replaceFrom_of_text h _ true (.ofText text)

end Comparing

end Parley.Regex
