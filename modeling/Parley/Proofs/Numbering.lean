import Parley.Proofs.Combining
import Parley.Proofs.Regex.Branches
import Parley.Proofs.Regex.Scanning

/-!
# Numbers of alternatives

The items of a list of substitutions are told apart by the numbers of the groups around them, which
are counted when the list is prepared. The counting is right if every group of an item can take part
in a match. Then what is replaced through an item is what its own expression has matched.

Main results:

* `Substitution.exists_branches_of_prepare` — every item has a branch with its number;
* `Program.exists_way_of_through?` — a match goes through the expression of the item that replaces
  it.
-/

namespace Parley

open Text

namespace Regex

/-- Groups that are not there do not count. -/
theorem lastGroup_eq_zero {r : Regex} (h : r.groupIndices = []) : r.lastGroup = 0 := by
  induction r with
  | empty => rfl
  | chars s => rfl
  | look l => rfl
  | cat a b iha ihb =>
    obtain ⟨ha, hb⟩ := List.append_eq_nil_iff.1 h
    rw [lastGroup, iha ha, ihb hb, Nat.max_self]
  | alt a b iha ihb =>
    obtain ⟨ha, hb⟩ := List.append_eq_nil_iff.1 h
    rw [lastGroup, iha ha, ihb hb, Nat.max_self]
  | group g r _ => cases h
  | repeated r min max? greedy ih =>
    rw [lastGroup]
    split
    · rfl
    · exact ih h

theorem groupIndices_of_isPart {f : Flags} {r : Regex} (h : IsPart f r) : r.groupIndices = [] := by
  rcases h with ⟨c, rfl⟩ | rfl
  · exact groupIndices_charExpr f c
  · exact groupIndices_charExpr f ' '

theorem exists_readState?_of_read? {text : List Char} {r : Regex} (h : read? text = some r) :
    ∃ e, readState? text = some e ∧ e.group = r := by
  rw [read?] at h
  rw [readState?]
  split at h
  · next e he =>
    split at h
    · exact ⟨e, he, Option.some.inj h⟩
    · cases h
  · cases h

end Regex

namespace Substitution

/-- Whether the expression of a substitution with its boundaries has no bar outside of groups. -/
def IsSequence (s : Substitution) : Prop :=
  ∃ e, Regex.readState? s.source = some e ∧ e.alternatives = []

/-- Whether the groups of an expression are as many as the number of the last one that can take
part in a match says. A group in a repetition of zero times takes part in none. -/
def CountsGroups (s : Substitution) : Prop :=
  ∀ e, Regex.readState? s.source = some e → e.group.lastGroup = e.groups

instance (s : Substitution) : Decidable s.IsSequence :=
  decidable_of_iff ((Regex.readState? s.source).any fun e => e.alternatives.isEmpty) <| by
    simp [IsSequence, Option.any_eq_true]

instance (s : Substitution) : Decidable s.CountsGroups :=
  decidable_of_iff ((Regex.readState? s.source).all fun e => e.group.lastGroup == e.groups) <| by
    simp [CountsGroups, Option.all_eq_true]

instance (text : List Char) : Decidable (Regex.EndsVerbose text) :=
  decidable_of_iff ((Regex.readState? text).any fun e => e.flags.verbose) <| by
    simp [Regex.EndsVerbose, Option.any_eq_true]

theorem isSequence_of_literal {s : Substitution} (h : s.kind = .literal) : s.IsSequence :=
  ⟨_, readState?_source h, rfl⟩

theorem countsGroups_of_literal {s : Substitution} (h : s.kind = .literal) : s.CountsGroups := by
  intro e he
  obtain rfl := Option.some.inj ((readState?_source h).symm.trans he)
  refine Regex.lastGroup_eq_zero ?_
  have hparts : Regex.expressions ((s.parts {}).map Regex.Item.expr).reverse = s.parts {} := by
    rw [Regex.expressions, List.reverse_reverse, List.filterMap_map]
    exact List.filterMap_some
  rw [Regex.group_of_alternatives_eq_nil rfl, Regex.sequence_eq, hparts, Regex.groupIndices_catAll,
    List.flatMap_eq_nil_iff]
  exact fun r hr => Regex.groupIndices_of_isPart ((plain_source {} h).isPart r hr)

/-! ## Numbers of alternatives -/

theorem le_group_of_mem_number {next : Nat} {items : List Substitution} {a : Alternative}
    (h : a ∈ number next items) : next ≤ a.group := by
  induction items generalizing next with
  | nil => cases h
  | cons s items ih =>
    rw [number] at h
    split at h
    · rcases List.mem_cons.1 h with rfl | h
      · exact Nat.le_refl _
      · have := ih h
        omega
    · exact ih h

/-- The groups of alternatives are numbered in their order. -/
theorem pairwise_number (next : Nat) (items : List Substitution) :
    (number next items).Pairwise fun a b => a.group < b.group := by
  induction items generalizing next with
  | nil => exact .nil
  | cons s items ih =>
    rw [number]
    split
    · refine .cons (fun b hb => ?_) (ih _)
      have := le_group_of_mem_number hb
      dsimp only
      omega
    · exact ih next

end Substitution

/-- Whether an expression is the branch of an alternative. -/
def Alternative.IsBranch (a : Alternative) (r : Regex) : Prop :=
  ∃ e body, Regex.readState? a.item.source = some e ∧
    Regex.IsBranch a.item.source e a.group body ∧ r = .group a.group body

namespace Substitution

/-- Only the valid items are numbered. -/
theorem number_valid (next : Nat) (items : List Substitution) :
    number next (valid items) = number next items := by
  induction items generalizing next with
  | nil => rfl
  | cons s items ih =>
    rw [valid, List.filter_cons]
    cases hread : Regex.read? s.source with
    | none =>
      rw [if_neg (by decide), number, hread]
      exact ih next
    | some r =>
      rw [if_pos Option.isSome_some, number, number, hread]
      exact congrArg _ (ih _)

/-- The branches of items are in groups with numbers in their order. These are the numbers of the
alternatives if groups are counted right. -/
theorem exists_isBranch_of_branches {items : List Substitution}
    (hvalid : ∀ s ∈ items, (Regex.read? s.source).isSome) {k : Nat} {rs : List Regex}
    (h : Regex.Branches k (items.map source) rs) :
    ∃ as : List Alternative, as.map Alternative.item = items ∧
      List.Forall₂ Alternative.IsBranch as rs ∧ (as.Pairwise fun a b => a.group < b.group) ∧
      (∀ a ∈ as, k < a.group) ∧
      ((∀ s ∈ items, s.CountsGroups) → as = number (k + 1) items) := by
  induction items generalizing k rs with
  | nil =>
    cases h
    exact ⟨[], rfl, .nil, .nil, fun _ ha => absurd ha List.not_mem_nil, fun _ => rfl⟩
  | cons s items ih =>
    obtain ⟨hs, hvalid⟩ := List.forall_mem_cons.1 hvalid
    cases h with
    | @cons _ _ e body _ rs he hbody hrest =>
      obtain ⟨as, hitems, hbranches, hless, hpos, hnumber⟩ := ih hvalid hrest
      refine ⟨⟨s, k + 1⟩ :: as, congrArg (s :: ·) hitems, .cons ⟨e, body, he, hbody, rfl⟩ hbranches,
        .cons (fun a ha => ?_) hless, fun a ha => ?_, fun hcounts => ?_⟩
      · have := hpos a ha
        dsimp only
        omega
      · rcases List.mem_cons.1 ha with rfl | ha
        · exact Nat.lt_succ_self k
        · have := hpos a ha
          omega
      -- as many groups as are counted, so that the next branch gets its number
      · obtain ⟨hcount, hcounts⟩ := List.forall_mem_cons.1 hcounts
        obtain ⟨r, hr⟩ := Option.isSome_iff_exists.1 hs
        obtain ⟨e', he', rfl⟩ := Regex.exists_readState?_of_read? hr
        obtain rfl := Option.some.inj (he.symm.trans he')
        rw [number, hr]
        dsimp only
        rw [hcount e he, hnumber hcounts, Nat.add_right_comm]

theorem alternatives_of_prepare {items : List Substitution} {program : Program}
    (h : (prepare items).program? = some program) : program.alternatives = number 1 items := by
  rw [prepare] at h
  split at h
  · obtain rfl := Option.some.inj h
    rfl
  · cases h

/-- What a list that can be used is prepared as: an alternation with a branch for each valid
item. -/
theorem exists_branches {items : List Substitution} {program : Program}
    (hsingle : ∀ s ∈ items, s.kind = .expression → Regex.EndsVerbose s.source →
      (prepare [s]).program?.isSome)
    (hprogram : (prepare items).program? = some program) (hne : program.alternatives ≠ []) :
    program.alternatives = number 1 items ∧
      ∃ as rs, rs ≠ [] ∧ program.regex = Regex.altAll rs ∧
        as.map Alternative.item = valid items ∧ List.Forall₂ Alternative.IsBranch as rs ∧
        (as.Pairwise fun a b => a.group < b.group) ∧ (∀ a ∈ as, 0 < a.group) ∧
        ((∀ s ∈ items, s.kind = .expression → s.CountsGroups) → as = number 1 items) := by
  -- the program has been read from the joined source
  have hread : ∃ e, Regex.readState? (joinedSource (number 1 items)) = some e ∧
      program = ⟨e.group, number 1 items⟩ := by
    rw [prepare] at hprogram
    split at hprogram
    · next r hr =>
      obtain ⟨e, he, rfl⟩ := Regex.exists_readState?_of_read? hr
      exact ⟨e, he, (Option.some.inj hprogram).symm⟩
    · cases hprogram
  obtain ⟨e, he, rfl⟩ := hread
  rw [joinedSource_number] at he
  have htexts : (valid items).map source ≠ [] := by
    rw [← item_number 1, List.map_map]
    simpa using hne
  -- every text is valid alone, and none of them swallows the end of its group
  obtain ⟨rs, hrs, hgroup⟩ := Regex.branches_of_readState? htexts
    (fun text htext => by
      obtain ⟨s, hs, rfl⟩ := List.mem_map.1 htext
      exact isSome_readState? (List.mem_filter.1 hs).2)
    (fun text htext hverbose => by
      obtain ⟨s, hs, rfl⟩ := List.mem_map.1 htext
      obtain ⟨hmem, hread⟩ := List.mem_filter.1 hs
      cases hkind : s.kind with
      | literal => exact absurd hverbose (not_endsVerbose_of_literal hkind)
      | expression => exact isSome_readState?_of_program? hread (hsingle s hmem hkind hverbose)) he
  have hrsne : rs ≠ [] := by
    rintro rfl
    generalize (valid items).map source = texts at hrs htexts
    cases hrs
    exact htexts rfl
  obtain ⟨as, hitems, hbranches, hless, hpos, hnumber⟩ :=
    exists_isBranch_of_branches (fun s hs => (List.mem_filter.1 hs).2) hrs
  refine ⟨rfl, as, rs, hrsne, hgroup, hitems, hbranches, hless, hpos, fun hcounts => ?_⟩
  rw [← number_valid]
  refine hnumber fun s hs => ?_
  cases hkind : s.kind with
  | literal => exact countsGroups_of_literal hkind
  | expression => exact hcounts s (List.mem_filter.1 hs).1 hkind

/-- If groups are counted right, the branches have the numbers of the alternatives. -/
theorem exists_branches_of_prepare {items : List Substitution} {program : Program}
    (hsingle : ∀ s ∈ items, s.kind = .expression → Regex.EndsVerbose s.source →
      (prepare [s]).program?.isSome)
    (hcounts : ∀ s ∈ items, s.kind = .expression → s.CountsGroups)
    (hprogram : (prepare items).program? = some program) (hne : program.alternatives ≠ []) :
    program.alternatives = number 1 items ∧
      ∃ rs, rs ≠ [] ∧ program.regex = Regex.altAll rs ∧
        List.Forall₂ Alternative.IsBranch program.alternatives rs := by
  obtain ⟨halternatives, as, rs, hrs, hregex, -, hbranches, -, -, hnumber⟩ :=
    exists_branches hsingle hprogram hne
  obtain rfl := hnumber hcounts
  exact ⟨halternatives, rs, hrs, hregex, halternatives ▸ hbranches⟩

end Substitution

/-! ## What a match goes through -/

namespace Program

theorem exists_mem_of_forall₂ {α β : Type} {R : α → β → Prop} {as : List α} {bs : List β}
    (h : List.Forall₂ R as bs) {b : β} (hb : b ∈ bs) : ∃ a ∈ as, R a b := by
  induction h with
  | nil => cases hb
  | cons hab _ ih =>
    rcases List.mem_cons.1 hb with rfl | hb
    · exact ⟨_, List.mem_cons_self, hab⟩
    · obtain ⟨a, ha, hab⟩ := ih hb
      exact ⟨a, List.mem_cons_of_mem _ ha, hab⟩

/-- The alternative that a match is replaced through: the first one that took part. -/
def through? (p : Program) (m : Regex.Match) : Option Alternative :=
  p.alternatives.find? fun a => (m.group? a.group).isSome

theorem group?_isSome_iff {m : Regex.Match} {g : Nat} :
    (m.group? g).isSome ↔
      (∃ note ∈ m.notes, note.1 = 2 * g) ∧ ∃ note ∈ m.notes, note.1 = 2 * g + 1 := by
  have hlookup : ∀ k, (m.notes.lookup k).isSome ↔ ∃ note ∈ m.notes, note.1 = k := by
    intro k
    rw [List.lookup_isSome_iff]
    exact exists_congr fun note => and_congr_right fun _ => by rw [beq_iff_eq, eq_comm]
  rw [← hlookup, ← hlookup, Regex.Match.group?]
  cases m.notes.lookup (2 * g) <;> cases m.notes.lookup (2 * g + 1) <;> simp

/-- The way of a match goes through the expression of the item that replaces it. -/
theorem exists_way_of_through? {program : Program}
    (hnumbers : program.alternatives.Pairwise fun a b => a.group < b.group) {rs : List Regex}
    (hrs : rs ≠ []) (hregex : program.regex = Regex.altAll rs)
    (hbranches : List.Forall₂ Alternative.IsBranch program.alternatives rs) {p : Regex.Place}
    {m : Regex.Match} (hm : Regex.matchAt program.regex p = some m) {a : Alternative}
    (ha : program.through? m = some a) :
    ∃ e body n notes mid, Regex.readState? a.item.source = some e ∧
      Regex.IsBranch a.item.source e a.group body ∧
      Regex.Way n [.run body] p notes mid ∧ m.stop = mid.place := by
  obtain ⟨htaken, front, rest, halternatives, hfront⟩ := List.find?_eq_some_iff_append.1 ha
  obtain ⟨-, n, hway⟩ := Regex.exists_way_of_matchAt hm
  rw [hregex] at hway
  obtain ⟨r, hr, k, hway⟩ := Regex.exists_way_of_altAll hrs hway
  obtain ⟨b, hb, e, body, he, hbody, rfl⟩ := exists_mem_of_forall₂ hbranches hr
  obtain ⟨k, mid, hway, hout, -⟩ := Regex.way_group.1 hway
  obtain ⟨hstop, hnotes⟩ := Regex.Outcome.mk.inj hout
  obtain ⟨new, hnew, habout⟩ := hway.exists_notes
  rw [hnew] at hnotes
  -- the group of the branch is noted, and no group with a smaller number
  have hnoted : (m.group? b.group).isSome := by
    rw [group?_isSome_iff, hnotes]
    exact ⟨⟨(2 * b.group, p.index), by simp, rfl⟩, ⟨_, List.mem_cons_self, rfl⟩⟩
  have hleast : b.group ≤ a.group := by
    obtain ⟨⟨note, hnote, hkey⟩, -⟩ := group?_isSome_iff.1 htaken
    rw [hnotes, List.mem_cons, List.mem_append, List.mem_singleton] at hnote
    rcases hnote with rfl | hnote | rfl
    · dsimp only at hkey
      omega
    · obtain ⟨g, hg, hgkey⟩ := habout note hnote
      have hlt : b.group < g := hbody.above g (by simpa [Regex.Task.groupIndices] using hg)
      omega
    · dsimp only at hkey
      omega
  rw [halternatives, List.mem_append, List.mem_cons] at hb
  rcases hb with hb | rfl | hb
  · have hnot := hfront b hb
    rw [hnoted] at hnot
    cases hnot
  · exact ⟨e, body, k, _, mid, he, hbody, hway, hstop⟩
  · rw [halternatives, List.pairwise_append, List.pairwise_cons] at hnumbers
    have := hnumbers.2.1.1 b hb
    omega

end Program

end Parley
