import Parley.Proofs.Numbering
import Parley.Proofs.Regex.Bodies
import Parley.Proofs.Regex.Choosing
import Parley.Proofs.Regex.Literals

/-!
# Items by themselves

A list of substitutions is matched as one expression. Still, at every place of a text the list
matches what the first of its items matches there that matches at all when it is a list of its own,
and what the groups of that item take is the same; only their numbers are others. The items of a
list do not see each other.

Main results:

* `Program.matchAt_eq_findSome?` — the match of a list at a place;
* `Program.exists_own_of_matchAt` — the item that a match is replaced through and its own match.
-/

namespace Parley

open Text

namespace Regex

theorem weight_le_maxWeight {text : List Char} {r : Regex} (h : read? text = some r) :
    r.weight ≤ maxWeight := by
  rw [read?] at h
  split at h
  · split at h
    · next hweight => exact Option.some.inj h ▸ hweight
    · cases h
  · cases h

theorem read?_of_readState? {text : List Char} {e : State} (h : readState? text = some e)
    (hweight : e.group.weight ≤ maxWeight) : read? text = some e.group := by
  rw [readState?] at h
  rw [read?, h]
  exact if_pos hweight

/-- What is in the first group of a match, if that is all of the expression. -/
theorem group?_of_matchAt_group {body : Regex} (habove : Above 1 body) {p : Place} {m : Match}
    (h : matchAt (.group 1 body) p = some m) : m.group? 1 = some m.text ∧ m.group? 0 = none := by
  obtain ⟨rfl, n, hway⟩ := exists_way_of_matchAt h
  obtain ⟨k, mid, hbody, hout, -⟩ := way_group.1 hway
  obtain ⟨hstop, hnotes⟩ := Outcome.mk.inj hout
  obtain ⟨new, hnew, habout⟩ := hbody.exists_notes
  -- the notes of a group have keys from twice its number on, and the groups inside are above 1
  have hkeys : ∀ note ∈ new, 4 ≤ note.1 := by
    intro note hnote
    obtain ⟨g, hg, hkey⟩ := habout note hnote
    have hlt : 1 < g := habove g (by simpa [Task.groupIndices] using hg)
    omega
  have hnone : ∀ key < 4, new.lookup key = none := by
    intro key hkey
    rw [List.lookup_eq_none_iff]
    intro note hnote
    have hle := hkeys note hnote
    rw [bne_iff_ne]
    omega
  rw [hnew, ← hstop] at hnotes
  constructor
  · rw [Match.group?, hnotes, List.lookup_cons, List.lookup_append, hnone 2 (by omega)]
    simp [Match.text]
  · rw [Match.group?, hnotes, List.lookup_cons, List.lookup_append, hnone 0 (by omega)]
    simp [List.lookup_cons]

end Regex

/-- The group around an item is the first one of its own match. -/
theorem Alternative.group?_raise {a : Alternative} (hpos : 0 < a.group) (own : Regex.Match) :
    (own.raise (a.group - 1)).group? a.group = own.group? 1 := by
  have hone := Regex.Match.group?_raise (a.group - 1) 1 own
  rwa [show 1 + (a.group - 1) = a.group by omega] at hone

namespace Substitution

/-- What an item matches at a place if it is a list of its own. -/
def ownMatch? (s : Substitution) (p : Regex.Place) : Option Regex.Match :=
  (prepare [s]).program?.bind fun own => Regex.matchAt own.regex p

/-- A list of one item is prepared as a group, which is the branch of the item in every other list
but for its numbers. -/
theorem exists_own {a : Alternative} {r : Regex} (hbranch : a.IsBranch r) (hpos : 0 < a.group)
    (hvalid : (Regex.read? a.item.source).isSome)
    (hsingle : a.item.kind = .expression → Regex.EndsVerbose a.item.source →
      (prepare [a.item]).program?.isSome)
    (hweight : r.weight ≤ Regex.maxWeight) :
    ∃ body, (prepare [a.item]).program? = some ⟨.group 1 body, [⟨a.item, 1⟩]⟩ ∧
      Regex.Above 1 body ∧ r = (Regex.group 1 body).raise (a.group - 1) := by
  obtain ⟨e, body', he, hbody', rfl⟩ := hbranch
  have hread : ∀ s ∈ [a.item.source], (Regex.readState? s).isSome := by
    simpa using isSome_readState? hvalid
  have halone : ∀ s ∈ [a.item.source], Regex.EndsVerbose s →
      (Regex.readState? (Regex.alternation [s])).isSome := by
    intro s hs hverbose
    obtain rfl := List.mem_singleton.1 hs
    cases hkind : a.item.kind with
    | literal => exact absurd hverbose (not_endsVerbose_of_literal hkind)
    | expression => exact isSome_readState?_of_program? hvalid (hsingle hkind hverbose)
  obtain ⟨final, hfinal⟩ := Option.isSome_iff_exists.1
    ((Regex.isSome_readState?_alternation hread halone).2 (List.pairwise_singleton _ _))
  obtain ⟨rs, hrs, hgroup⟩ := Regex.branches_of_readState? (List.cons_ne_nil _ _) hread halone
    hfinal
  cases hrs with
  | @cons _ _ e₁ body _ _ he₁ hbody hrest =>
    cases hrest
    obtain ⟨k, hk⟩ := Nat.exists_eq_add_of_le hpos
    obtain rfl := Option.some.inj (he.symm.trans he₁)
    rw [hk] at hbody'
    -- the same text in two branches is the same but for the numbers
    have hraise : body' = body.raise k := hbody.read.eq_raise hbody'.read
    have hr : Regex.group a.group body' = (Regex.group 1 body).raise (a.group - 1) := by
      rw [hk, hraise, Nat.add_sub_cancel_left, Regex.raise]
    refine ⟨body, ?_, hbody.above, hr⟩
    have hnumber : number 1 [a.item] = [⟨a.item, 1⟩] := by
      obtain ⟨q, hq⟩ := Option.isSome_iff_exists.1 hvalid
      rw [number, hq]
      rfl
    have hsource : joinedSource (number 1 [a.item]) = Regex.alternation [a.item.source] := by
      rw [hnumber]
      rfl
    have hfinalWeight : final.group.weight ≤ Regex.maxWeight := by
      rw [hr, Regex.weight_raise] at hweight
      rw [hgroup]
      exact hweight
    rw [prepare, hsource, Regex.read?_of_readState? hfinal hfinalWeight, hgroup, hnumber]
    rfl

end Substitution

/-! ## Matches of a list -/

namespace Program

open Substitution

theorem findSome?_eq_of_forall₂ {α β γ : Type} {R : α → β → Prop} {f : α → Option γ}
    {g : β → Option γ} {as : List α} {bs : List β} (h : List.Forall₂ R as bs)
    (hfg : ∀ a ∈ as, ∀ b ∈ bs, R a b → f a = g b) : as.findSome? f = bs.findSome? g := by
  induction h with
  | nil => rfl
  | @cons a b as bs hab _ ih =>
    have hrest := ih fun a ha b hb =>
      hfg a (List.mem_cons_of_mem _ ha) b (List.mem_cons_of_mem _ hb)
    rw [List.findSome?_cons, List.findSome?_cons, hrest,
      hfg a List.mem_cons_self b List.mem_cons_self hab]

/-- What is known of a branch of an alternative: the item by itself is a group, and the branch is
this group with other numbers. -/
structure IsRaised (a : Alternative) (branch : Nat × Regex) : Prop where
  group : a.group = branch.1
  own : ∃ body, (prepare [a.item]).program? = some ⟨.group 1 body, [⟨a.item, 1⟩]⟩ ∧
    Regex.Above 1 body ∧ Regex.group branch.1 branch.2 = (Regex.group 1 body).raise (a.group - 1)

theorem exists_raised_of_forall₂ {as : List Alternative} {rs : List Regex}
    (h : List.Forall₂ Alternative.IsBranch as rs)
    (hown : ∀ a ∈ as, ∀ r ∈ rs, a.IsBranch r →
      ∃ body, (prepare [a.item]).program? = some ⟨.group 1 body, [⟨a.item, 1⟩]⟩ ∧
        Regex.Above 1 body ∧ r = (Regex.group 1 body).raise (a.group - 1)) :
    ∃ branches, rs = Regex.groupsOf branches ∧ List.Forall₂ IsRaised as branches := by
  induction h with
  | nil => exact ⟨[], rfl, .nil⟩
  | @cons a r as rs har _ ih =>
    obtain ⟨branches, rfl, hbranches⟩ := ih fun b hb q hq =>
      hown b (List.mem_cons_of_mem _ hb) q (List.mem_cons_of_mem _ hq)
    have hraised := hown a List.mem_cons_self r List.mem_cons_self har
    obtain ⟨e, body, -, -, rfl⟩ := har
    exact ⟨(a.group, body) :: branches, rfl, .cons ⟨rfl, hraised⟩ hbranches⟩

theorem map_group_of_forall₂ {as : List Alternative} {branches : List (Nat × Regex)}
    (h : List.Forall₂ IsRaised as branches) : as.map Alternative.group = branches.map Prod.fst := by
  induction h with
  | nil => rfl
  | cons hab _ ih => rw [List.map_cons, List.map_cons, hab.group, ih]

section Lists

variable {items : List Substitution} {program : Program}

/-- What a list that can be used is prepared as: its valid items by themselves, with other
numbers. -/
theorem exists_raised (hsingle : ∀ s ∈ items, s.kind = .expression →
      Regex.EndsVerbose s.source → (prepare [s]).program?.isSome)
    (hprogram : (prepare items).program? = some program) (hne : program.alternatives ≠ []) :
    ∃ as branches, as.map Alternative.item = valid items ∧ branches ≠ [] ∧
      program.regex = Regex.altAll (Regex.groupsOf branches) ∧ List.Forall₂ IsRaised as branches ∧
      (branches.map Prod.fst).Nodup ∧ (∀ a ∈ as, 0 < a.group) ∧
      ((∀ s ∈ items, s.kind = .expression → s.CountsGroups) → program.alternatives = as) := by
  obtain ⟨halternatives, as, rs, hrs, hregex, hitems, hbranches, hless, hpos, hnumber⟩ :=
    exists_branches hsingle hprogram hne
  -- the program is not too large, so that none of its branches is alone
  have hfits : program.regex.weight ≤ Regex.maxWeight := by
    rw [prepare] at hprogram
    split at hprogram
    · next r hr =>
      obtain rfl := Option.some.inj hprogram
      exact Regex.weight_le_maxWeight hr
    · cases hprogram
  obtain ⟨branches, rfl, hraised⟩ := exists_raised_of_forall₂ hbranches fun a ha r hr hbranch => by
    have hvalid : a.item ∈ valid items := hitems ▸ List.mem_map_of_mem ha
    obtain ⟨hitem, hread⟩ := List.mem_filter.1 hvalid
    have hweight := Regex.weight_le_weight_altAll hr
    rw [← hregex] at hweight
    have hlength := List.length_pos_of_mem hr
    exact exists_own hbranch (hpos a ha) hread (hsingle a.item hitem) (by omega)
  refine ⟨as, branches, hitems, ?_, hregex, hraised, ?_, hpos,
    fun hcounts => halternatives.trans (hnumber hcounts).symm⟩
  · rintro rfl
    exact hrs rfl
  · rw [← map_group_of_forall₂ hraised]
    exact List.pairwise_map.2 (hless.imp Nat.ne_of_lt)

theorem matchAt_eq_findSome?_of_raised {as : List Alternative} {branches : List (Nat × Regex)}
    (hne : branches ≠ []) (hraised : List.Forall₂ IsRaised as branches)
    (hnumbers : (branches.map Prod.fst).Nodup) (p : Regex.Place) :
    Regex.matchAt (Regex.altAll (Regex.groupsOf branches)) p =
      as.findSome? fun a => (a.item.ownMatch? p).map (Regex.Match.raise (a.group - 1)) := by
  rw [Regex.matchAt_altAll hne hnumbers]
  refine (findSome?_eq_of_forall₂ hraised fun a _ branch _ hab => ?_).symm
  obtain ⟨body, hown, -, hbranch⟩ := hab.own
  rw [ownMatch?, hown, Option.bind_some, hbranch, Regex.matchAt_raise]

/-- A list matches at a place only what an item of it matches there by itself, however its groups
are counted. -/
theorem exists_ownMatch?_of_matchAt (hsingle : ∀ s ∈ items, s.kind = .expression →
      Regex.EndsVerbose s.source → (prepare [s]).program?.isSome)
    (hprogram : (prepare items).program? = some program) (hne : program.alternatives ≠ [])
    {p : Regex.Place} {m : Regex.Match} (hm : Regex.matchAt program.regex p = some m) :
    ∃ s ∈ valid items, ∃ m', s.ownMatch? p = some m' := by
  obtain ⟨as, branches, hitems, hbranches, hregex, hraised, hnumbers, -⟩ :=
    exists_raised hsingle hprogram hne
  rw [hregex, matchAt_eq_findSome?_of_raised hbranches hraised hnumbers] at hm
  obtain ⟨a, ha, hmatch⟩ := List.exists_of_findSome?_eq_some hm
  obtain ⟨m', hm', -⟩ := Option.map_eq_some_iff.1 hmatch
  exact ⟨a.item, hitems ▸ List.mem_map_of_mem ha, m', hm'⟩

/-- A valid item by itself is one group, and its number is the first one. -/
theorem exists_group_of_prepare {s : Substitution} (hvalid : (Regex.read? s.source).isSome)
    (hprogram : (prepare [s]).program? = some program) :
    ∃ body, program = ⟨.group 1 body, [⟨s, 1⟩]⟩ ∧ Regex.Above 1 body := by
  have hsingle : ∀ t ∈ [s], t.kind = .expression → Regex.EndsVerbose t.source →
      (prepare [t]).program?.isSome := by
    intro t ht _ _
    rw [List.mem_singleton.1 ht, hprogram]
    rfl
  have hne : program.alternatives ≠ [] := by
    obtain ⟨r, hr⟩ := Option.isSome_iff_exists.1 hvalid
    rw [alternatives_of_prepare hprogram, number, hr]
    exact List.cons_ne_nil _ _
  obtain ⟨as, branches, hitems, -, -, hraised, -⟩ := exists_raised hsingle hprogram hne
  have hall : valid [s] = [s] := List.filter_cons_of_pos hvalid
  rw [hall] at hitems
  cases hraised with
  | nil => cases hitems
  | cons hab _ =>
    obtain ⟨body, hown, habove, -⟩ := hab.own
    rw [(List.cons.inj hitems).1] at hown
    exact ⟨body, Option.some.inj (hprogram.symm.trans hown), habove⟩

/-- **At every place a list matches what the first of its items matches there by itself that matches
at all**, with the numbers of the groups raised. -/
theorem matchAt_eq_findSome? (hsingle : ∀ s ∈ items, s.kind = .expression →
      Regex.EndsVerbose s.source → (prepare [s]).program?.isSome)
    (hcounts : ∀ s ∈ items, s.kind = .expression → s.CountsGroups)
    (hprogram : (prepare items).program? = some program) (hne : program.alternatives ≠ [])
    (p : Regex.Place) :
    Regex.matchAt program.regex p = program.alternatives.findSome? fun a =>
      (a.item.ownMatch? p).map (Regex.Match.raise (a.group - 1)) := by
  obtain ⟨as, branches, -, hbranches, hregex, hraised, hnumbers, -, halternatives⟩ :=
    exists_raised hsingle hprogram hne
  rw [hregex, halternatives hcounts, matchAt_eq_findSome?_of_raised hbranches hraised hnumbers]

/-- **A match of a list is the own match of the item that it is replaced through**, with the numbers
of the groups raised. It is the first item that matches there by itself. -/
theorem exists_own_of_matchAt (hsingle : ∀ s ∈ items, s.kind = .expression →
      Regex.EndsVerbose s.source → (prepare [s]).program?.isSome)
    (hcounts : ∀ s ∈ items, s.kind = .expression → s.CountsGroups)
    (hprogram : (prepare items).program? = some program) (hne : program.alternatives ≠ [])
    {p : Regex.Place} {m : Regex.Match} (hm : Regex.matchAt program.regex p = some m) :
    ∃ a own m', program.through? m = some a ∧
      program.alternatives.find? (fun b => (b.item.ownMatch? p).isSome) = some a ∧
      a ∈ number 1 items ∧ (prepare [a.item]).program? = some own ∧
      own.alternatives = [⟨a.item, 1⟩] ∧ Regex.matchAt own.regex p = some m' ∧
      m = m'.raise (a.group - 1) ∧ m'.group? 1 = some m'.text := by
  have hfirst := matchAt_eq_findSome? hsingle hcounts hprogram hne p
  -- the program finds what the first item that matches alone does
  rw [hm] at hfirst
  obtain ⟨front, a, behind, hsplit, ha, hfront⟩ := List.findSome?_eq_some_iff.1 hfirst.symm
  obtain ⟨m', hm', rfl⟩ := Option.map_eq_some_iff.1 ha
  obtain ⟨as, branches, -, -, -, hraised, -, -, has⟩ := exists_raised hsingle hprogram hne
  obtain rfl := has hcounts
  have halternatives := alternatives_of_prepare hprogram
  have hmem : a ∈ program.alternatives := hsplit ▸ List.mem_append_right front List.mem_cons_self
  have hpos : 0 < a.group := le_group_of_mem_number (halternatives ▸ hmem)
  obtain ⟨branch, -, hab⟩ := exists_mem_of_forall₂ hraised.flip hmem
  obtain ⟨body, hown, habove, -⟩ := hab.own
  have hfound : program.alternatives.find? (fun b => (b.item.ownMatch? p).isSome) = some a := by
    refine List.find?_eq_some_iff_append.2 ⟨?_, front, behind, hsplit, fun b hb => ?_⟩
    · rw [hm']
      rfl
    · rw [Option.map_eq_none_iff.1 (hfront b hb)]
      rfl
  rw [ownMatch?, hown, Option.bind_some] at hm'
  obtain ⟨hwhole, hzero⟩ := Regex.group?_of_matchAt_group habove hm'
  -- the group of the item is that of the whole match
  have hthrough : program.through? (m'.raise (a.group - 1)) = some a := by
    refine List.find?_eq_some_iff_append.2 ⟨?_, front, behind, hsplit, fun b hb => ?_⟩
    · rw [Alternative.group?_raise hpos, hwhole]
      rfl
    · -- the groups of the items in front have smaller numbers
      have hless : b.group < a.group := by
        have hpairs := pairwise_number 1 items
        rw [← halternatives, hsplit, List.pairwise_append] at hpairs
        exact hpairs.2.2 b hb a List.mem_cons_self
      have hnone : (m'.raise (a.group - 1)).group? b.group = none := by
        rcases Nat.lt_or_ge b.group (a.group - 1) with hlt | hge
        · exact Regex.Match.group?_raise_of_lt hlt m'
        · have hgroup := Regex.Match.group?_raise (a.group - 1) 0 m'
          rw [show 0 + (a.group - 1) = b.group by omega] at hgroup
          rw [hgroup, hzero]
      rw [hnone]
      rfl
  exact ⟨a, _, m', hthrough, hfound, halternatives ▸ hmem, hown, rfl, hm', rfl, hwhole⟩

end Lists

end Program

end Parley
