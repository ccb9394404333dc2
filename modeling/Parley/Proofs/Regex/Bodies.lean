import Parley.Proofs.Regex.Branches
import Parley.Proofs.Regex.Renumbering

/-!
# The same text in different branches

A text is read the same in every branch of every alternation, but for the numbers of its groups,
which are counted from the group around it on. So its branch in an alternation is its branch as the
only alternative with raised numbers.

Main result: `IsBody.eq_raise`.
-/

namespace Parley.Regex

/-! ## Raising numbers in a state -/

theorem raise_of_groupIndices_eq_nil {r : Regex} (h : r.groupIndices = []) (k : Nat) :
    r.raise k = r := by
  induction r with
  | cat a b iha ihb =>
    obtain ⟨ha, hb⟩ := List.append_eq_nil_iff.1 h
    rw [raise, iha ha, ihb hb]
  | alt a b iha ihb =>
    obtain ⟨ha, hb⟩ := List.append_eq_nil_iff.1 h
    rw [raise, iha ha, ihb hb]
  | group g r _ => cases h
  | repeated r min max? greedy ih => rw [raise, ih h]
  | _ => rfl

theorem raise_catAll (k : Nat) (rs : List Regex) :
    (catAll rs).raise k = catAll (rs.map (raise k)) := by
  induction rs using catAll.induct with
  | case1 => rfl
  | case2 r => rfl
  | case3 r rest hrest ih =>
    rw [catAll, raise, ih, List.map_cons, catAll]
    · simpa using hrest
    · exact hrest

theorem raise_altAll (k : Nat) (rs : List Regex) :
    (altAll rs).raise k = altAll (rs.map (raise k)) := by
  induction rs using altAll.induct with
  | case1 => rfl
  | case2 r => rfl
  | case3 r rest hrest ih =>
    rw [altAll, raise, ih, List.map_cons, altAll]
    · simpa using hrest
    · exact hrest

def Item.raise (k : Nat) : Item → Item
  | .expr r => .expr (r.raise k)
  | .switch => .switch

def OpenGroup.raise (k : Nat) (g : OpenGroup) : OpenGroup where
  index? := g.index?.map (· + k)
  flags := g.flags
  alternatives := g.alternatives.map (Regex.raise k)
  items := g.items.map (Item.raise k)

theorem raise_sequence (k : Nat) (items : List Item) :
    (sequence items).raise k = sequence (items.map (Item.raise k)) := by
  have hexpression : ∀ i : Item, (i.raise k).expression? = i.expression?.map (Regex.raise k) := by
    rintro (r | _) <;> rfl
  rw [sequence_eq, sequence_eq, raise_catAll, expressions, expressions, List.map_filterMap,
    ← List.map_reverse, List.filterMap_map]
  congr 1
  exact List.filterMap_congr fun i _ => (hexpression i).symm

/-! ## Two groups around the same text -/

/-- Whether one of two states inside of groups is the other with raised numbers, as far as the
groups inside go. -/
structure State.Raised (k : Nat) (below below' : List OpenGroup) (st st' : State) : Prop where
  flags : st'.flags = st.flags
  alternatives : st'.alternatives = st.alternatives.map (Regex.raise k)
  items : st'.items = st.items.map (Item.raise k)
  outer : ∃ groups, st.outer = groups ++ below ∧
    st'.outer = groups.map (OpenGroup.raise k) ++ below'
  groups : st'.groups = st.groups + k

namespace State.Raised

variable {k : Nat} {below below' : List OpenGroup} {st st' st₁ st₁' : State}

theorem group_eq (h : State.Raised k below below' st st') : st'.group = st.group.raise k := by
  rw [State.group, State.group, raise_altAll, h.alternatives, h.items, ← raise_sequence,
    List.map_reverse, List.map_cons]

theorem openGroup (h : State.Raised k below below' st st') {index? index?' : Option Nat}
    {f f' : Flags} (hindex : index?' = index?.map (· + k)) (hf : f' = f) :
    State.Raised k below below' (st.openGroup index? f) (st'.openGroup index?' f') where
  flags := hf
  alternatives := rfl
  items := rfl
  outer := by
    obtain ⟨groups, houter, houter'⟩ := h.outer
    refine ⟨⟨index?, st.flags, st.alternatives, st.items⟩ :: groups, congrArg _ houter, ?_⟩
    rw [State.openGroup, houter', h.flags, h.alternatives, h.items, hindex]
    rfl
  groups := h.groups

theorem closeGroup? (h : State.Raised k below below' st st') (hinside : st.outer ≠ below)
    (hclose : st.closeGroup? = some st₁) (hclose' : st'.closeGroup? = some st₁') :
    State.Raised k below below' st₁ st₁' := by
  obtain ⟨groups, houter, houter'⟩ := h.outer
  cases groups with
  | nil => exact absurd houter hinside
  | cons g groups =>
    rw [State.closeGroup?, houter] at hclose
    rw [State.closeGroup?, houter'] at hclose'
    obtain rfl := Option.some.inj hclose
    obtain rfl := Option.some.inj hclose'
    refine ⟨rfl, rfl, ?_, ⟨groups, rfl, rfl⟩, h.groups⟩
    dsimp only
    rw [h.group_eq, List.map_cons, Item.raise]
    cases hindex : g.index? <;> simp [OpenGroup.raise, hindex, Regex.raise]

theorem repeatLast? (h : State.Raised k below below' st st') {min : Nat} {max? : Option Nat}
    {greedy : Bool} (hrepeat : st.repeatLast? min max? greedy = some st₁)
    (hrepeat' : st'.repeatLast? min max? greedy = some st₁') :
    State.Raised k below below' st₁ st₁' := by
  rw [State.repeatLast?] at hrepeat
  split at hrepeat
  · next r items hitems =>
    rw [State.repeatLast?, h.items, hitems, h.flags] at hrepeat'
    obtain rfl := Option.some.inj hrepeat
    obtain rfl := Option.some.inj hrepeat'
    exact ⟨rfl, h.alternatives, rfl, h.outer, h.groups⟩
  · cases hrepeat

/-- What a piece does in one of the groups it does in the other. -/
theorem take? (h : State.Raised k below below' st st') {p : Piece} (hp : p.Groupless)
    (hinside : p = .close → st.outer ≠ below) (htake : st.take? p = some st₁)
    (htake' : st'.take? p = some st₁') : State.Raised k below below' st₁ st₁' := by
  -- a group is counted before it is opened, which changes nothing else
  have hcounted : ∀ names names', State.Raised k below below'
      { st with groups := st.groups + 1, names }
      { st' with groups := st'.groups + 1, names := names' } := fun names names' =>
    ⟨h.flags, h.alternatives, h.items, h.outer, by dsimp only; rw [h.groups]; omega⟩
  have hindex : some (st'.groups + 1) = (some (st.groups + 1)).map (· + k) := by
    rw [h.groups, Option.map_some]
    congr 1
    omega
  cases p with
  | opening o =>
    cases o with
    | capture =>
      obtain rfl := Option.some.inj htake
      obtain rfl := Option.some.inj htake'
      exact (hcounted st.names st'.names).openGroup hindex h.flags
    | named name =>
      rw [State.take?] at htake htake'
      split at htake
      · cases htake
      · split at htake'
        · cases htake'
        · obtain rfl := Option.some.inj htake
          obtain rfl := Option.some.inj htake'
          exact (hcounted _ _).openGroup hindex h.flags
    | plain f =>
      obtain rfl := Option.some.inj htake
      obtain rfl := Option.some.inj htake'
      exact h.openGroup rfl rfl
    | switch f =>
      obtain rfl := Option.some.inj htake
      obtain rfl := Option.some.inj htake'
      exact ⟨rfl, h.alternatives, congrArg _ h.items, h.outer, h.groups⟩
  | close => exact h.closeGroup? (hinside rfl) htake htake'
  | bar =>
    obtain rfl := Option.some.inj htake
    obtain rfl := Option.some.inj htake'
    refine ⟨h.flags, ?_, rfl, h.outer, h.groups⟩
    rw [State.bar, State.bar, h.items, h.alternatives, List.map_cons, raise_sequence]
  | expr r =>
    obtain rfl := Option.some.inj htake
    obtain rfl := Option.some.inj htake'
    refine ⟨h.flags, h.alternatives, ?_, h.outer, h.groups⟩
    rw [State.push, State.push, h.items, List.map_cons, Item.raise, raise_of_groupIndices_eq_nil hp]
  | again min max? greedy => exact h.repeatLast? htake htake'

/-- The same for pieces that can be taken alone and so do not leave the group. -/
theorem takeAll? {base alone e e₁ e₁' : State} (h : State.Raised k base.outer below' st st')
    (hinside : base.Inside alone st) {ps qs : List Piece} (hpq : List.Forall₂ Piece.Alike ps qs)
    (hqs : ∀ q ∈ qs, q.Groupless) (halone : alone.takeAll? ps = some e)
    (htake : st.takeAll? qs = some e₁) (htake' : st'.takeAll? qs = some e₁') :
    State.Raised k base.outer below' e₁ e₁' := by
  induction hpq generalizing alone st st' with
  | nil =>
    obtain rfl := Option.some.inj htake
    obtain rfl := Option.some.inj htake'
    exact h
  | cons hpq _ ih =>
    obtain ⟨alone₁, hfirst, halone⟩ := Option.bind_eq_some_iff.1 halone
    obtain ⟨st₁, hfirst₁, htake⟩ := Option.bind_eq_some_iff.1 htake
    obtain ⟨st₁', hfirst₁', htake'⟩ := Option.bind_eq_some_iff.1 htake'
    obtain ⟨hq, hqs⟩ := List.forall_mem_cons.1 hqs
    exact ih (h.take? hq (hinside.outer_ne_of_close hpq hfirst) hfirst₁ hfirst₁')
      (hinside.take? hpq hq hfirst hfirst₁) hqs halone htake htake'

end State.Raised

/-! ## The same text -/

/-- A text is read as the same pieces whatever follows. -/
theorem Spells.unique {fs : List Flags} {s : List Char} {ps qs : List Piece} (h : Spells fs s ps)
    (h' : Spells fs s qs) : ps = qs := by
  have hclose : ∀ (f : Flags) (s r : List Char) (p : Piece),
      (∀ t, skip f (s ++ ')' :: t) = ')' :: t) →
        ¬∀ t, readPiece f (skip f (s ++ ')' :: t)) = some (p, r ++ ')' :: t) := by
    intro f s r p hskip hpiece
    have hread := hpiece []
    rw [hskip] at hread
    have heq : readPiece f [')'] = some (.close, []) := rfl
    have hnil := (Prod.mk.inj (Option.some.inj (heq.symm.trans hread))).2
    simp at hnil
  induction h generalizing qs with
  | @nil f below s hnil =>
    cases h' with
    | nil _ => rfl
    | cons hpiece _ => exact absurd hpiece (hclose f s _ _ hnil)
  | @cons f below s r p ps hpiece _ ih =>
    cases h' with
    | nil hnil => exact absurd hpiece (hclose f s _ _ hnil)
    | @cons _ _ _ r' p' ps' hpiece' hrest' =>
      -- both pieces are read from the same text, with nothing behind the closing parenthesis
      obtain ⟨rfl, hr⟩ := Prod.mk.inj (Option.some.inj ((hpiece []).symm.trans (hpiece' [])))
      obtain rfl := List.append_cancel_right hr
      rw [ih hrest']

/-- **A text in a group is the text in the first group with raised numbers.** -/
theorem IsBody.eq_raise {s : List Char} {e e' : State} {g k : Nat} {body body' : Regex}
    (h : IsBody s e g body) (h' : IsBody s e' (g + k) body') : body' = body.raise k := by
  obtain ⟨st, e₁, ps, qs, hst, hg, hps, hpq, hspells, he₁, rfl⟩ := h
  obtain ⟨st', e₁', -, qs', hst', hg', -, -, hspells', he₁', rfl⟩ := h'
  obtain rfl := hspells.unique hspells'
  have hstart : st.opened.Inside {} st.opened := ⟨.empty _ _ _, ⟨[], .nil, rfl⟩, rfl⟩
  have hraised : State.Raised k st.opened.outer st'.opened.outer st.opened st'.opened := by
    refine ⟨?_, rfl, rfl, ⟨[], rfl, rfl⟩, ?_⟩
    · exact hst'.flags.trans hst.flags.symm
    · show st'.groups + 1 = st.groups + 1 + k
      rw [hg', hg]
  exact (hraised.takeAll? hstart hpq (groupless_of_spells hspells) hps he₁ he₁').group_eq

end Parley.Regex
