import Parley.Proofs.Regex.Branches
import Parley.Proofs.Regex.Plain
import Parley.Proofs.Regex.Scanning
import Parley.Proofs.Spaces

/-!
# Alternations of literals

Where each alternative is a plain text, the reader makes the same of it in its group as alone but
for the case, and the matcher takes from the text what the characters of the alternative stand for:
a character in any case, or a run of spaces.

Main results:

* `readState?_alternation_of_plain` — what an alternation of plain texts is read as;
* `exists_takenByAll_of_way` and `exists_way_of_takenByAll` — the ways through a plain text are what
  can be taken by its parts;
* `exists_matchAt_branches` and `exists_first_of_matchAt_branches` — of the texts that can be taken
  at a place, the first one is.
-/

namespace Parley.Regex

open Text

/-! ## Reading -/

/-- Sequences of parts as branches, in groups that are numbered behind `k`. -/
def branchesFrom (k : Nat) : List (List Regex) → List Regex
  | [] => []
  | ps :: rest => .group (k + 1) (catAll ps) :: branchesFrom (k + 1) rest

/-- Items come last first, so those of a list are found in its order. -/
theorem expressions_reverse (rs : List Regex) :
    expressions (rs.map Item.expr).reverse = rs := by
  rw [expressions, List.reverse_reverse, List.filterMap_map]
  exact List.filterMap_some

/-- A group with a plain text becomes an item. -/
theorem State.Between.exists_readFrom_plain {st : State} (hst : st.Between) {s : List Char}
    {ps : List Regex} (hs : Plain caseless s ps) {n : Nat} (hn : s.length + 2 ≤ n) (t : List Char) :
    ∃ n' st', readFrom n st ('(' :: (s ++ ')' :: t)) = readFrom n' st' t ∧ st'.Between ∧
      st'.groups = st.groups + 1 ∧ st'.alternatives = st.alternatives ∧
      st'.items = .expr (.group (st.groups + 1) (catAll ps)) :: st.items ∧
      n ≤ n' + s.length + 2 := by
  have hmark : ∀ rest, ')' :: t ≠ '?' :: rest := by simp
  have hflags : st.opened.flags = caseless := hst.flags
  obtain ⟨k, hk, hread⟩ := hs.exists_readFrom rfl rfl hmark hflags
  obtain ⟨m, rfl⟩ := Nat.exists_eq_add_of_le' (show k + 2 ≤ n by omega)
  have hbody : catAll ps =
      ({ st.opened with items := (ps.map Item.expr).reverse ++ st.opened.items }).group := by
    rw [group_of_alternatives_eq_nil rfl, sequence_eq]
    show _ = catAll (expressions ((ps.map Item.expr).reverse ++ []))
    rw [List.append_nil, expressions_reverse]
  rw [show m + (k + 2) = k + (m + 1) + 1 by omega, hst.readFrom_open (hs.append_ne_mark hmark),
    hread, readFrom_close rfl]
  refine ⟨m, _, rfl, ⟨hst.flags, hst.outer, hst.names⟩, rfl, rfl, ?_, by omega⟩
  rw [hbody]

/-- Plain texts in groups of their own are read as branches, one for each text. -/
theorem State.Between.exists_group_of_plain {st : State} (hst : st.Between)
    (hitems : expressions st.items = []) {texts : List (List Char)} {parts : List (List Regex)}
    (h : List.Forall₂ (Plain caseless) texts parts) (htexts : texts ≠ []) {n : Nat}
    (hn : (grouped texts).length < n) :
    ∃ e, readFrom n st (grouped texts) = some e ∧
      e.group = altAll (st.alternatives.reverse ++ branchesFrom st.groups parts) := by
  induction h generalizing st n with
  | nil => exact absurd rfl htexts
  | @cons s ps texts parts hs h ih =>
    rw [grouped_cons] at hn ⊢
    simp only [List.length_cons, List.length_append] at hn
    obtain ⟨m, st', hread, hst', hgroups, halternatives, hst'items, hm⟩ :=
      hst.exists_readFrom_plain hs (n := n) (by omega) (barred texts)
    rw [hread]
    have hsequence : sequence st'.items = .group (st.groups + 1) (catAll ps) := by
      rw [hst'items, sequence_cons_last, hitems]
      rfl
    by_cases hnil : texts = []
    · -- the text ends behind the last group
      subst hnil
      cases h
      rw [barred, if_pos rfl] at hn ⊢
      rw [List.length_nil] at hn
      obtain ⟨m, rfl⟩ := Nat.exists_eq_add_of_lt (show 0 < m by omega)
      refine ⟨st', by rw [readFrom_of_skip (skip_nil _), hst'.outer]; rfl, ?_⟩
      rw [State.group, hsequence, halternatives, List.reverse_cons]
      rfl
    · rw [barred, if_neg hnil] at hn ⊢
      rw [List.length_cons] at hn
      obtain ⟨m, rfl⟩ := Nat.exists_eq_add_of_lt (show 0 < m by omega)
      obtain ⟨e, he, hgroup⟩ := @ih st'.bar hst'.bar rfl hnil (0 + m) (by omega)
      refine ⟨e, by rw [hst'.readFrom_bar]; exact he, ?_⟩
      have hnext : st'.bar.groups = st.groups + 1 := hgroups
      rw [hgroup, hnext, State.bar, hsequence, halternatives, List.reverse_cons,
        List.append_assoc]
      rfl

/-- Plain texts can always be read as the alternatives of one expression. -/
theorem readState?_alternation_of_plain {texts : List (List Char)} {parts : List (List Regex)}
    (h : List.Forall₂ (Plain caseless) texts parts) (htexts : texts ≠ []) :
    ∃ e, readState? (alternation texts) = some e ∧ e.group = altAll (branchesFrom 0 parts) := by
  rw [readState?_alternation]
  exact between_start.exists_group_of_plain rfl h htexts (by omega)

/-! ## Matching -/

/-- What a part of a literal takes: a character in any case, or one or more spaces. -/
inductive TakenBy : Regex → List Char → Prop where
  | one {c d : Char} (h : foldChar d = foldChar c) : TakenBy (charExpr caseless c) [d]
  | many {u : List Char} (hne : u ≠ []) (hu : ∀ d ∈ u, d = ' ') :
    TakenBy (.repeated (charExpr caseless ' ') 1 none true) u

/-- What the parts of a literal take one after the other. -/
inductive TakenByAll : List Regex → List Char → Prop where
  | nil : TakenByAll [] []
  | cons {r : Regex} {rs : List Regex} {u v : List Char} (h : TakenBy r u) (ht : TakenByAll rs v) :
    TakenByAll (r :: rs) (u ++ v)

section Ways

variable {place : Place} {notes : Notes} {o : Outcome}

/-- A character takes one that is the same in another case. -/
theorem way_charExpr {n : Nat} {c : Char} :
    Way n [.run (charExpr caseless c)] place notes o ↔
      n = 1 ∧ ∃ d rest, place.rest = d :: rest ∧ foldChar d = foldChar c ∧
        o = ⟨{ before := some d, rest, index := place.index + 1 }, notes⟩ := by
  rw [show charExpr caseless c = .chars (.caseless c) from rfl, way_chars]
  simp only [CharSet.mem_caseless_iff]

/-- A repetition of a character takes copies of it, in any case. -/
theorem exists_took_of_way_again {n : Nat} {c : Char}
    (h : Way n [.again (charExpr caseless c) true] place notes o) :
    ∃ u, place.Took u o.place ∧ (∀ d ∈ u, foldChar d = foldChar c) ∧ o.notes = notes := by
  induction n using Nat.strongRecOn generalizing place with
  | _ n ih =>
    obtain ⟨m, hm, l, hway, rfl⟩ := way_cons.1 h
    simp only [moves, List.mem_cons, List.not_mem_nil, or_false] at hm
    -- one more copy and then the rest, or the end
    rcases hm with rfl | rfl
    · obtain ⟨k, l', mid, hone, hmore, rfl⟩ := hway.split_cons
      obtain ⟨rfl, d, rest, hrest, hd, rfl⟩ := way_charExpr.1 hone
      obtain ⟨u, htook, hu, hnotes⟩ := ih l' (by omega) hmore
      refine ⟨d :: u, ⟨?_, ?_⟩, List.forall_mem_cons.2 ⟨hd, hu⟩, hnotes⟩
      · rw [hrest, List.cons_append, ← htook.1]
      · rw [htook.2, List.length_cons]
        dsimp only
        omega
    · obtain ⟨-, rfl⟩ := way_nil.1 hway
      exact ⟨[], .refl place, fun _ hd => absurd hd List.not_mem_nil, rfl⟩

/-- All copies can be taken, with two steps for each of them and one to end. -/
theorem exists_way_again {c : Char} {u rest : List Char} (hu : ∀ d ∈ u, foldChar d = foldChar c)
    (hrest : place.rest = u ++ rest) :
    ∃ o, Way (2 * u.length + 1) [.again (charExpr caseless c) true] place notes o ∧
      place.Took u o.place ∧ o.notes = notes := by
  induction u generalizing place with
  | nil =>
    refine ⟨⟨place, notes⟩, way_cons.2 ⟨⟨[], place, notes⟩, ?_, 0, .done, rfl⟩, .refl place, rfl⟩
    simp [moves]
  | cons d u ih =>
    obtain ⟨hd, hu⟩ := List.forall_mem_cons.1 hu
    obtain ⟨o, hway, htook, hnotes⟩ :=
      @ih { before := some d, rest := u ++ rest, index := place.index + 1 } hu rfl
    have hfirst : place.Took [d]
        { before := some d, rest := u ++ rest, index := place.index + 1 } := ⟨hrest, rfl⟩
    refine ⟨o, way_cons.2 ⟨⟨[.run (charExpr caseless c), .again (charExpr caseless c) true], place,
      notes⟩, by simp [moves], 1 + (2 * u.length + 1), ?_, ?_⟩, hfirst.trans htook, hnotes⟩
    · exact (way_charExpr.2 ⟨rfl, d, _, hrest, hd, rfl⟩).append hway
    · rw [List.length_cons]
      omega

/-- One or more is one, and then any number. -/
theorem way_repeated_one {n : Nat} {r : Regex} :
    Way n [.run (.repeated r 1 none true)] place notes o ↔
      ∃ k l mid, Way k [.run r] place notes mid ∧ Way l [.again r true] mid.place mid.notes o ∧
        n = k + l + 1 := by
  rw [way_cons]
  simp only [moves, List.mem_singleton, exists_eq_left, List.cons_append, List.nil_append]
  constructor
  · rintro ⟨m, h, rfl⟩
    obtain ⟨k, l, mid, hone, hmore, rfl⟩ := h.split_cons
    exact ⟨k, l, mid, hone, hmore, rfl⟩
  · rintro ⟨k, l, mid, hone, hmore, rfl⟩
    exact ⟨k + l, hone.append hmore, rfl⟩

/-- No other character is a space in any case. -/
theorem foldChar_eq_iff_space {c : Char} : foldChar c = foldChar ' ' ↔ c = ' ' := by
  rw [foldChar_eq_space_iff.2 rfl, foldChar_eq_space_iff]

/-- What a part of a literal matches is taken by it. -/
theorem exists_takenBy_of_way {r : Regex} (hr : IsPart caseless r) {n : Nat}
    (h : Way n [.run r] place notes o) :
    ∃ u, TakenBy r u ∧ place.Took u o.place ∧ o.notes = notes := by
  rcases hr with ⟨c, rfl⟩ | rfl
  · obtain ⟨-, d, rest, hrest, hd, rfl⟩ := way_charExpr.1 h
    exact ⟨[d], .one hd, ⟨hrest, rfl⟩, rfl⟩
  · obtain ⟨k, l, mid, hone, hmore, -⟩ := way_repeated_one.1 h
    obtain ⟨-, d, rest, hrest, hd, rfl⟩ := way_charExpr.1 hone
    obtain ⟨u, htook, hu, hnotes⟩ := exists_took_of_way_again hmore
    have hfirst : place.Took [d] { before := some d, rest, index := place.index + 1 } :=
      ⟨hrest, rfl⟩
    refine ⟨d :: u, .many (List.cons_ne_nil d u) ?_, hfirst.trans htook, hnotes⟩
    exact List.forall_mem_cons.2
      ⟨foldChar_eq_iff_space.1 hd, fun e he => foldChar_eq_iff_space.1 (hu e he)⟩

/-- What a part of a literal can take, it matches, in few steps. -/
theorem exists_way_of_takenBy {r : Regex} {u rest : List Char} (h : TakenBy r u)
    (hrest : place.rest = u ++ rest) :
    ∃ n ≤ 2 * u.length + 1, ∃ o, Way n [.run r] place notes o ∧ place.Took u o.place ∧
      o.notes = notes := by
  cases h with
  | @one c d hd =>
    refine ⟨1, by omega, _, way_charExpr.2 ⟨rfl, d, rest, hrest, hd, rfl⟩, ⟨hrest, rfl⟩, rfl⟩
  | many hne hu =>
    obtain ⟨d, u, rfl⟩ := List.exists_cons_of_ne_nil hne
    obtain ⟨rfl, hrun⟩ := List.forall_mem_cons.1 hu
    have hspace : ∀ d ∈ u, foldChar d = foldChar ' ' := fun d hd =>
      foldChar_eq_iff_space.2 (hrun d hd)
    obtain ⟨o, hway, htook, hnotes⟩ := @exists_way_again
      { before := some ' ', rest := u ++ rest, index := place.index + 1 } notes ' ' u rest hspace
      rfl
    have hfirst : place.Took [' ']
        { before := some ' ', rest := u ++ rest, index := place.index + 1 } := ⟨hrest, rfl⟩
    refine ⟨_, ?_, o, way_repeated_one.2 ⟨1, _, _, way_charExpr.2 ⟨rfl, ' ', _, hrest, rfl, rfl⟩,
      hway, rfl⟩, hfirst.trans htook, hnotes⟩
    rw [List.length_cons]
    omega

/-- A way through the parts of a literal takes what they take. -/
theorem exists_takenByAll_of_way {rs : List Regex} (hrs : ∀ r ∈ rs, IsPart caseless r) {n : Nat}
    (h : Way n [.run (catAll rs)] place notes o) :
    ∃ u, TakenByAll rs u ∧ place.Took u o.place ∧ o.notes = notes := by
  induction rs generalizing n place notes with
  | nil =>
    obtain ⟨-, rfl⟩ := way_empty.1 h
    exact ⟨[], .nil, .refl place, rfl⟩
  | cons r rs ih =>
    obtain ⟨hr, hrs⟩ := List.forall_mem_cons.1 hrs
    obtain ⟨k, l, mid, hfirst, hrest⟩ := exists_way_of_catAll_cons h
    obtain ⟨u, hu, htook, hnotes⟩ := exists_takenBy_of_way hr hfirst
    obtain ⟨v, hv, htook', hnotes'⟩ := ih hrs hrest
    exact ⟨u ++ v, .cons hu hv, htook.trans htook', hnotes'.trans hnotes⟩

/-- Whatever the parts of a literal can take is taken by a way through them. -/
theorem exists_way_of_takenByAll {rs : List Regex} {u rest : List Char} (h : TakenByAll rs u)
    (hrest : place.rest = u ++ rest) :
    ∃ n ≤ 2 * u.length + 2 * rs.length + 1, ∃ o, Way n [.run (catAll rs)] place notes o ∧
      place.Took u o.place ∧ o.notes = notes := by
  induction h generalizing place with
  | nil => exact ⟨1, by simp, _, way_empty.2 ⟨rfl, rfl⟩, .refl place, rfl⟩
  | @cons r rs u v hu hv ih =>
    rw [List.append_assoc] at hrest
    obtain ⟨k, hk, mid, hfirst, htook, hnotes⟩ := exists_way_of_takenBy hu hrest
    have hmid : mid.place.rest = v ++ rest := List.append_cancel_left (htook.1.symm.trans hrest)
    obtain ⟨l, hl, o, hway, htook', hnotes'⟩ := ih hmid
    rw [List.length_append, List.length_cons]
    cases rs with
    | nil =>
      cases hv
      exact ⟨k, by omega, mid, hfirst, by rwa [List.append_nil], hnotes⟩
    | cons r' rs =>
      refine ⟨k + l + 1, by omega, o, way_cat.2 ⟨k, l, mid, hfirst, ?_, rfl⟩,
        htook.trans htook', hnotes'⟩
      rw [hnotes]
      exact hway

end Ways

/-! ## Measures -/

/-- No expression is without weight. -/
theorem weight_pos (r : Regex) : 0 < r.weight := by
  cases r <;> simp [weight]

/-- A sequence weighs at least two for each part, less one. -/
theorem length_le_weight_catAll (rs : List Regex) : 2 * rs.length ≤ (catAll rs).weight + 1 := by
  induction rs with
  | nil => simp
  | cons r rs ih =>
    have hr := weight_pos r
    cases rs with
    | nil => simp only [catAll, List.length_singleton]; omega
    | cons r' rs =>
      rw [catAll, weight, List.length_cons]
      · omega
      · simp

/-- Every other alternative adds at least one to the weight of an alternative. -/
theorem weight_le_weight_altAll {r : Regex} {rs : List Regex} (h : r ∈ rs) :
    r.weight + rs.length ≤ (altAll rs).weight + 1 := by
  -- every alternative has some weight
  have hlength : ∀ rs : List Regex, rs.length ≤ (altAll rs).weight := by
    intro rs
    induction rs with
    | nil => exact Nat.zero_le _
    | cons r rs ih =>
      have hr := weight_pos r
      cases rs with
      | nil => exact hr
      | cons r' rs =>
        rw [altAll, weight, List.length_cons]
        · omega
        · simp
  induction rs with
  | nil => cases h
  | cons q rs ih =>
    cases rs with
    | nil =>
      obtain rfl := List.mem_singleton.1 h
      exact Nat.le_refl _
    | cons q' rs =>
      have hrest := hlength (q' :: rs)
      have hq := weight_pos q
      rw [altAll, weight, List.length_cons]
      · rcases List.mem_cons.1 h with rfl | h
        · omega
        · have := ih h
          omega
      · simp

/-- A sequence cannot retrace its steps if none of its parts can. -/
theorem retraces_catAll {rs : List Regex} (h : ∀ r ∈ rs, r.retraces = false) :
    (catAll rs).retraces = false := by
  induction rs with
  | nil => rfl
  | cons r rs ih =>
    obtain ⟨hr, hrs⟩ := List.forall_mem_cons.1 h
    cases rs with
    | nil => exact hr
    | cons r' rs =>
      rw [catAll, retraces, hr, ih hrs]
      · rfl
      · simp

/-- Alternatives cannot retrace their steps if none of them can. -/
theorem retraces_altAll {rs : List Regex} (h : ∀ r ∈ rs, r.retraces = false) :
    (altAll rs).retraces = false := by
  induction rs with
  | nil => rfl
  | cons r rs ih =>
    obtain ⟨hr, hrs⟩ := List.forall_mem_cons.1 h
    cases rs with
    | nil => exact hr
    | cons r' rs =>
      rw [altAll, retraces, hr, ih hrs]
      · rfl
      · simp

/-- The branches for literals cannot retrace their steps: they repeat nothing but spaces. -/
theorem retraces_branchesFrom {parts : List (List Regex)}
    (h : ∀ rs ∈ parts, ∀ r ∈ rs, IsPart caseless r) (k : Nat) :
    ∀ r ∈ branchesFrom k parts, r.retraces = false := by
  have hpart : ∀ {r : Regex}, IsPart caseless r → r.retraces = false := by
    rintro r (⟨c, rfl⟩ | rfl) <;> rfl
  induction parts generalizing k with
  | nil => exact fun r hr => absurd hr List.not_mem_nil
  | cons rs parts ih =>
    obtain ⟨hrs, hparts⟩ := List.forall_mem_cons.1 h
    exact List.forall_mem_cons.2 ⟨retraces_catAll fun r hr => hpart (hrs r hr), ih hparts (k + 1)⟩

/-! ## Matches of alternations -/

/-- One branch for each literal. -/
theorem length_branchesFrom (k : Nat) (parts : List (List Regex)) :
    (branchesFrom k parts).length = parts.length := by
  induction parts generalizing k with
  | nil => rfl
  | cons rs parts ih => exact congrArg (· + 1) (ih (k + 1))

/-- The branches for the literals behind are numbered behind those in front. -/
theorem branchesFrom_append (k : Nat) (front behind : List (List Regex)) :
    branchesFrom k (front ++ behind) =
      branchesFrom k front ++ branchesFrom (k + front.length) behind := by
  induction front generalizing k with
  | nil => rfl
  | cons rs front ih =>
    rw [List.cons_append, branchesFrom, branchesFrom, ih, List.length_cons,
      show k + (front.length + 1) = k + 1 + front.length by omega]
    rfl

/-- The branch for a literal has the number of literals in front of it, and one. -/
theorem group_mem_branchesFrom (front : List (List Regex)) (rs : List Regex)
    (behind : List (List Regex)) :
    .group (front.length + 1) (catAll rs) ∈ branchesFrom 0 (front ++ rs :: behind) := by
  rw [branchesFrom_append, Nat.zero_add]
  exact List.mem_append_right _ List.mem_cons_self

/-- Branches are split where their sequences are. -/
theorem exists_of_branchesFrom_eq_append {k : Nat} {parts : List (List Regex)} {r : Regex}
    {front behind : List Regex} (h : branchesFrom k parts = front ++ r :: behind) :
    ∃ before rs after, parts = before ++ rs :: after ∧ front = branchesFrom k before ∧
      r = .group (k + before.length + 1) (catAll rs) := by
  induction parts generalizing k front with
  | nil => simp [branchesFrom] at h
  | cons rs parts ih =>
    cases front with
    | nil =>
      obtain ⟨rfl, -⟩ := List.cons.inj h
      exact ⟨[], rs, parts, rfl, rfl, rfl⟩
    | cons q front =>
      obtain ⟨rfl, hrest⟩ := List.cons.inj h
      obtain ⟨before, qs, after, rfl, rfl, rfl⟩ := ih hrest
      refine ⟨rs :: before, qs, after, rfl, rfl, ?_⟩
      rw [List.length_cons, show k + (before.length + 1) = k + 1 + before.length by omega]

section Matches

variable {parts : List (List Regex)} {p : Place}

/-- Whatever the parts of a branch take, there is a way for it that the fuel is enough for. -/
theorem exists_way_branch {front behind : List (List Regex)} {rs : List Regex} {u v : List Char}
    (hu : TakenByAll rs u) (hne : u ≠ []) (hrest : p.rest = u ++ v) :
    ∃ n o, Way n [.run (.group (front.length + 1) (catAll rs))] p [] o ∧
      n + (front ++ rs :: behind).length <
        (p.rest.length + 1) * ((altAll (branchesFrom 0 (front ++ rs :: behind))).weight + 2) := by
  obtain ⟨n, hn, o, hway, -⟩ :=
    @exists_way_of_takenByAll p [(2 * (front.length + 1), p.index)] rs u v hu hrest
  refine ⟨n + 2, _, way_group.2 ⟨n, o, hway, rfl, rfl⟩, ?_⟩
  have hmem := group_mem_branchesFrom front rs behind
  have hweight := weight_le_weight_altAll hmem
  have hparts := length_le_weight_catAll rs
  have hpos := weight_pos (catAll rs)
  rw [length_branchesFrom, weight] at hweight
  generalize (altAll (branchesFrom 0 (front ++ rs :: behind))).weight = w at hweight ⊢
  generalize (front ++ rs :: behind).length = l at hweight ⊢
  -- the fuel is counted by the weight and the length of the rest
  have hlength : u.length ≤ p.rest.length := by
    rw [hrest, List.length_append]
    omega
  have hupos := List.length_pos_iff.2 hne
  have hrounds := Nat.mul_le_mul_right w (show 2 ≤ p.rest.length + 1 by omega)
  rw [Nat.mul_add]
  omega

/-- Alternatives have a way wherever one of them has. -/
theorem exists_way_of_mem {rs : List Regex} {r : Regex} (hr : r ∈ rs) {n : Nat} {notes : Notes}
    {o : Outcome} (h : Way n [.run r] p notes o) :
    ∃ m ≤ n + rs.length, Way m [.run (altAll rs)] p notes o := by
  induction rs with
  | nil => cases hr
  | cons q rs ih =>
    cases rs with
    | nil =>
      obtain rfl := List.mem_singleton.1 hr
      exact ⟨n, by omega, h⟩
    | cons q' rs =>
      rcases List.mem_cons.1 hr with rfl | hr
      · refine ⟨n + 1, ?_, way_alt.2 ⟨n, .inl h, rfl⟩⟩
        simp only [List.length_cons]
        omega
      · obtain ⟨m, hm, hway⟩ := ih hr
        refine ⟨m + 1, ?_, way_alt.2 ⟨m, .inr hway, rfl⟩⟩
        rw [List.length_cons]
        omega

/-- There is a match where the parts of a branch can take something. -/
theorem exists_matchAt_branches (hparts : ∀ rs ∈ parts, ∀ r ∈ rs, IsPart caseless r)
    {rs : List Regex} (hrs : rs ∈ parts) {u v : List Char} (hu : TakenByAll rs u) (hne : u ≠ [])
    (hrest : p.rest = u ++ v) : ∃ m, matchAt (altAll (branchesFrom 0 parts)) p = some m := by
  obtain ⟨front, behind, rfl⟩ := List.append_of_mem hrs
  obtain ⟨n, o, hway, hn⟩ := @exists_way_branch p front behind rs u v hu hne hrest
  have hmem := group_mem_branchesFrom front rs behind
  obtain ⟨m, hm, hway⟩ := exists_way_of_mem hmem hway
  rw [length_branchesFrom] at hm
  exact exists_matchAt_of_way (retraces_altAll (retraces_branchesFrom hparts 0)) hway (by omega)

/-- A match goes through the first branch whose parts can take something there. -/
theorem exists_first_of_matchAt_branches (hparts : ∀ rs ∈ parts, ∀ r ∈ rs, IsPart caseless r)
    (hne : parts ≠ []) {m : Match} (h : matchAt (altAll (branchesFrom 0 parts)) p = some m) :
    ∃ front rs behind u, parts = front ++ rs :: behind ∧ TakenByAll rs u ∧ p.Took u m.stop ∧
      m.notes = [(2 * (front.length + 1) + 1, m.stop.index), (2 * (front.length + 1), p.index)] ∧
      ∀ qs ∈ front, ∀ u v, TakenByAll qs u → u ≠ [] → p.rest ≠ u ++ v := by
  have hbranches : branchesFrom 0 parts ≠ [] := by
    rw [← List.length_pos_iff, length_branchesFrom]
    exact List.length_pos_iff.2 hne
  obtain ⟨fronts, r, behinds, hsplit, ⟨n, hway⟩, hfirst⟩ :=
    exists_first_of_matchAt hbranches (retraces_altAll (retraces_branchesFrom hparts 0)) h
  obtain ⟨front, rs, behind, rfl, rfl, rfl⟩ := exists_of_branchesFrom_eq_append hsplit
  rw [Nat.zero_add] at hway
  obtain ⟨k, mid, hbody, hout, -⟩ := way_group.1 hway
  obtain ⟨hstop, hnotes⟩ := Outcome.mk.inj hout
  obtain ⟨u, hu, htook, hmid⟩ :=
    exists_takenByAll_of_way (hparts rs (List.mem_append_right _ List.mem_cons_self)) hbody
  refine ⟨front, rs, behind, u, rfl, hu, hstop ▸ htook, by rw [hnotes, hmid, hstop], ?_⟩
  intro qs hqs u v hu hsome hrest
  -- a branch in front of it would have been gone through
  obtain ⟨before, after, rfl⟩ := List.append_of_mem hqs
  obtain ⟨n, o, hway, hn⟩ :=
    @exists_way_branch p before (after ++ rs :: behind) qs u v hu hsome hrest
  have hfuel := hfirst _ (group_mem_branchesFrom before qs after) n o hway
  rw [length_branchesFrom, List.append_assoc, List.cons_append] at hfuel
  omega

end Matches

end Parley.Regex
