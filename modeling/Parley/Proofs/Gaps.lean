import Parley.Proofs.Misses
import Parley.Proofs.Regex.Gaps
import Parley.Proofs.Rewriting

/-!
# Gaps in patterns

The words of a pattern are set apart by gaps, and so are the words of a text. A literal matches at a
place if the text has its characters there in some case, with gaps of two spaces, which is what all
gaps of a working text are. So it does not matter whether the gaps of a literal are one space wide
or two. A gap of three spaces or more is wider than those of every text, and a literal that has one
matches nothing.

Main results:

* `Substitution.ownMatch?_eq` — where a literal matches by itself, and what;
* `Substitution.misses_of_isWide` — a literal with a wide gap matches nothing;
* `Substitutions.apply_of_alikeInGaps` — lists of literals with other gaps do the same.
-/

namespace Parley

open Text

namespace Substitution

open Regex

/-! ## Where a literal matches -/

/-- A literal with gaps of two spaces, and with a space at each end where the pattern has one. -/
def spelled (s : Substitution) : List Char :=
  (if s.pattern.toList.head? == some ' ' then [' '] else []) ++ doubled (strip s.pattern.toList) ++
    (if s.pattern.toList.getLast? == some ' ' then [' '] else [])

/-- Whether a pattern has a gap of three spaces or more. -/
def IsWide (s : Substitution) : Prop := HasWideGap (strip s.pattern.toList)

instance (s : Substitution) : Decidable s.IsWide := inferInstanceAs (Decidable (HasWideGap _))

variable {s t : Substitution} {p : Place}

/-- From a text whose gaps are two spaces wide, a literal without a wide gap takes what it is
spelled as, in any case, and one with a wide gap takes nothing. -/
theorem takenByAll_parts_iff {front u behind : List Char}
    (htext : GapsDoubled (front ++ (u ++ behind))) :
    TakenByAll (s.parts caseless) u ↔ ¬s.IsWide ∧ s.spelled.map foldChar = u.map foldChar := by
  have hends : ∀ c ∈ (strip s.pattern.toList).head?, c ≠ ' ' := fun c hc =>
    ne_space_of_isBlank (not_isBlank_of_head?_strip hc)
  have hlast : (strip s.pattern.toList).getLast? ≠ some ' ' := fun hspace =>
    ne_space_of_isBlank (not_isBlank_of_getLast?_strip hspace) rfl
  rw [parts, takenByAll_append_iff, spelled, List.map_append, List.map_append]
  constructor
  · -- what is taken is parted in what the two ends take and what the words between them take
    rintro ⟨v, w, rfl, hv, hw⟩
    obtain ⟨x, y, rfl, hx, hy⟩ := takenByAll_append_iff.1 hv
    have htext' : GapsDoubled ((front ++ x) ++ (y ++ (w ++ behind))) := by simpa using htext
    obtain ⟨hnarrow, hsame⟩ := map_foldChar_of_takenByAll htext'
      (fun hspace => absurd rfl (hends ' ' hspace)) hlast hy
    rw [takenByAll_boundary_iff.1 hx, takenByAll_boundary_iff.1 hw, hsame]
    exact ⟨hnarrow, by simp⟩
  · rintro ⟨hnarrow, hsame⟩
    -- what is spelled is parted in the same way
    obtain ⟨v, w, rfl, hv, hw⟩ := List.map_eq_append_iff.1 hsame.symm
    obtain ⟨x, y, rfl, hx, hy⟩ := List.map_eq_append_iff.1 hv
    refine ⟨x ++ y, w, rfl, takenByAll_append_iff.2 ⟨x, y, rfl, ?_, ?_⟩, ?_⟩
    · exact takenByAll_boundary_iff.2 hx.symm
    · exact takenByAll_of_map_foldChar hnarrow hy.symm
    · exact takenByAll_boundary_iff.2 hw.symm

/-- Whether a literal is spelled out at a place, in some case. -/
def IsSpelledAt (s : Substitution) (p : Place) : Prop :=
  s.spelled.map foldChar = (p.rest.take s.spelled.length).map foldChar

instance (s : Substitution) (p : Place) : Decidable (s.IsSpelledAt p) :=
  inferInstanceAs (Decidable (_ = _))

/-- **A literal matches by itself where it is spelled out** with gaps of two spaces, in any case, if
it has no wide gap. -/
theorem ownMatch?_eq (hkind : s.kind = .literal) (hvalid : (read? s.source).isSome)
    (hown : (prepare [s]).program?.isSome) (hne : strip s.pattern.toList ≠ [])
    {front : List Char} (htext : GapsDoubled (front ++ p.rest)) :
    s.ownMatch? p =
      if ¬s.IsWide ∧ s.IsSpelledAt p then
        some { start := p, stop := p.advance s.spelled.length
               notes := [(3, p.index + s.spelled.length), (2, p.index)] }
      else none := by
  have hprogram : (prepare [s]).program? = some (literalProgram [s]) :=
    program?_eq_of_literal (List.cons_ne_nil s []) (List.forall_mem_singleton.2 hkind)
      (List.forall_mem_singleton.2 fun _ => hvalid) fun _ => by rwa [← isSome_program?]
  have hmatchAt : s.ownMatch? p = matchAt (altAll (branchesFrom 0 [s.parts caseless])) p := by
    rw [ownMatch?, hprogram]
    rfl
  have hparts : ∀ rs ∈ [s.parts caseless], ∀ r ∈ rs, IsPart caseless r :=
    List.forall_mem_singleton.2 (plain_source caseless hkind).isPart
  rw [hmatchAt]
  cases hm : matchAt (altAll (branchesFrom 0 [s.parts caseless])) p with
  | none =>
    refine (if_neg ?_).symm
    rintro ⟨hnarrow, hspelled⟩
    -- what is spelled out would be taken
    have hsplit : p.rest = p.rest.take s.spelled.length ++ p.rest.drop s.spelled.length :=
      (List.take_append_drop ..).symm
    have htaken : TakenByAll (s.parts caseless) (p.rest.take s.spelled.length) :=
      (takenByAll_parts_iff (hsplit ▸ htext)).2 ⟨hnarrow, hspelled⟩
    have hsome : p.rest.take s.spelled.length ≠ [] := by
      intro hnil
      rw [IsSpelledAt, hnil, List.map_nil, List.map_eq_nil_iff, spelled] at hspelled
      simp only [List.append_eq_nil_iff] at hspelled
      exact doubled_ne_nil hne hspelled.1.2
    obtain ⟨m, hm'⟩ :=
      exists_matchAt_branches hparts (List.mem_singleton_self _) htaken hsome hsplit
    rw [hm] at hm'
    cases hm'
  | some m =>
    obtain ⟨front', rs, behind', u, hbranch, hu, htook, hnotes, -⟩ :=
      exists_first_of_matchAt_branches hparts (List.cons_ne_nil _ _) hm
    -- there is one branch only
    obtain ⟨rfl, rfl, -⟩ : front' = [] ∧ rs = s.parts caseless ∧ behind' = [] := by
      simpa [List.singleton_eq_append_iff] using hbranch
    rw [htook.1] at htext
    obtain ⟨hnarrow, hsame⟩ := (takenByAll_parts_iff htext).1 hu
    have hlength : u.length = s.spelled.length := by
      simpa using (congrArg List.length hsame).symm
    have hspelled : s.IsSpelledAt p := by
      rw [IsSpelledAt, ← hlength, htook.1, List.take_left, hsame]
    rw [if_pos ⟨hnarrow, hspelled⟩, ← hlength]
    obtain ⟨hstart, -⟩ := exists_way_of_matchAt hm
    have hstop := Place.eq_advance_of_took (reaches_stop hm) htook
    obtain ⟨start, stop, notes⟩ := m
    dsimp only at hstart hstop hnotes htook
    rw [hstart, hnotes, htook.2, hstop]
    rfl

/-! ## Literals with a wide gap -/

/-- A literal with a wide gap matches at no place of a working text. -/
theorem ownMatch?_of_isWide (hkind : s.kind = .literal) (hvalid : (read? s.source).isSome)
    (hwide : s.IsWide) {front : List Char} (htext : GapsDoubled (front ++ p.rest)) :
    s.ownMatch? p = none := by
  by_cases hown : (prepare [s]).program?.isSome
  · have hne : strip s.pattern.toList ≠ [] := by
      intro hnil
      rw [IsWide, hnil] at hwide
      exact absurd hwide (by decide)
    rw [ownMatch?_eq hkind hvalid hown hne htext]
    exact if_neg fun h => h.1 hwide
  · rw [ownMatch?, Option.not_isSome_iff_eq_none.1 hown, Option.bind_none]

end Substitution

/-- The rest of a working text at a place of it. -/
theorem Substitutions.exists_gapsDoubled {text : String} {q : Regex.Place}
    (hq : (Regex.Place.ofText (workingText (breakWords text.toList))).Reaches q) :
    ∃ front, GapsDoubled (front ++ q.rest) := by
  obtain ⟨n, -, rfl⟩ := hq
  refine ⟨(workingText (breakWords text.toList)).take n, ?_⟩
  rw [Regex.Place.rest_advance, Regex.Place.ofText, List.take_append_drop]
  exact gapsDoubled_workingText (areWords_breakWords _)

namespace Substitution

variable {s t : Substitution}

/-- **A literal with a wide gap replaces nothing**, in any text. -/
theorem misses_of_isWide (hkind : s.kind = .literal) (hwide : s.IsWide) (text : String) :
    s.Misses text := by
  cases hvalid : (Regex.read? s.source).isSome with
  | false => exact misses_of_invalid hvalid text
  | true =>
    intro own hown m hm
    obtain ⟨hplace, hmatch⟩ := Regex.reaches_of_mem_allMatches hm
    obtain ⟨front, htext⟩ := Substitutions.exists_gapsDoubled hplace
    have hnone := ownMatch?_of_isWide hkind hvalid hwide htext
    rw [ownMatch?, hown, Option.bind_some, hmatch] at hnone
    cases hnone

/-! ## Literals that differ in their gaps -/

/-- Whether two literals have the same replacement and the same pattern, but for the number of
spaces in each gap. -/
structure SameButGaps (s t : Substitution) : Prop where
  kind_left : s.kind = .literal
  kind_right : t.kind = .literal
  replacement : s.replacement = t.replacement
  pattern : squeeze s.pattern.toList = squeeze t.pattern.toList

instance (s t : Substitution) : Decidable (s.SameButGaps t) :=
  decidable_of_iff
    (s.kind = .literal ∧ t.kind = .literal ∧ s.replacement = t.replacement ∧
      squeeze s.pattern.toList = squeeze t.pattern.toList)
    ⟨fun ⟨hleft, hright, hreplacement, hpattern⟩ => ⟨hleft, hright, hreplacement, hpattern⟩,
      fun ⟨hleft, hright, hreplacement, hpattern⟩ => ⟨hleft, hright, hreplacement, hpattern⟩⟩

namespace SameButGaps

theorem head?_eq (h : s.SameButGaps t) : s.pattern.toList.head? = t.pattern.toList.head? := by
  rw [← head?_squeeze, h.pattern, head?_squeeze]

theorem getLast?_eq (h : s.SameButGaps t) :
    s.pattern.toList.getLast? = t.pattern.toList.getLast? := by
  rw [← getLast?_squeeze, h.pattern, getLast?_squeeze]

theorem squeeze_strip_eq (h : s.SameButGaps t) :
    squeeze (strip s.pattern.toList) = squeeze (strip t.pattern.toList) := by
  rw [squeeze_strip, squeeze_strip, h.pattern]

/-- Both are spelled alike with gaps of two spaces. -/
theorem spelled_eq (h : s.SameButGaps t) : s.spelled = t.spelled := by
  rw [spelled, spelled, h.head?_eq, h.getLast?_eq, doubled, doubled, h.squeeze_strip_eq]

theorem strip_eq_nil_iff (h : s.SameButGaps t) :
    strip s.pattern.toList = [] ↔ strip t.pattern.toList = [] := by
  rw [← List.head?_eq_none_iff, ← List.head?_eq_none_iff, ← head?_squeeze, h.squeeze_strip_eq,
    head?_squeeze]

/-- If nothing is left without the blanks at the ends, both have the same expression. -/
theorem source_eq (h : s.SameButGaps t) (hnil : strip s.pattern.toList = []) :
    s.source = t.source := by
  have hbody : s.body = t.body := by
    rw [body, body, hnil, h.strip_eq_nil_iff.1 hnil, h.kind_left, h.kind_right]
  rw [source, source, h.head?_eq, h.getLast?_eq, hbody]

end SameButGaps

/-- What an item matches by itself depends on its expression only. -/
theorem ownMatch?_of_source_eq (h : s.source = t.source) (p : Regex.Place) :
    s.ownMatch? p = t.ownMatch? p := by
  have hown : ∀ u : Substitution, u.ownMatch? p =
      (Regex.read? (joinedSource (number 1 [u]))).bind fun r => Regex.matchAt r p := by
    intro u
    rw [ownMatch?, prepare]
    cases Regex.read? (joinedSource (number 1 [u])) <;> rfl
  have hjoined : joinedSource (number 1 [s]) = joinedSource (number 1 [t]) := by
    rw [joinedSource_number, joinedSource_number, valid, valid, List.filter_singleton,
      List.filter_singleton, h]
    cases (Regex.read? t.source).isSome with
    | false => rfl
    | true => rw [cond_true, cond_true, List.map_singleton, List.map_singleton, h]
  rw [hown, hown, hjoined]

/-- Whether the gaps of two literals matter in no way: both have a wide gap or none has, and both
are refused for their size or none is. -/
structure AlikeInGaps (s t : Substitution) : Prop extends SameButGaps s t where
  wide : s.IsWide ↔ t.IsWide
  valid : (Regex.read? s.source).isSome = (Regex.read? t.source).isSome

instance (s t : Substitution) : Decidable (s.AlikeInGaps t) :=
  decidable_of_iff
    (s.SameButGaps t ∧ (s.IsWide ↔ t.IsWide) ∧
      (Regex.read? s.source).isSome = (Regex.read? t.source).isSome)
    ⟨fun ⟨hsame, hwide, hvalid⟩ => ⟨hsame, hwide, hvalid⟩,
      fun ⟨hsame, hwide, hvalid⟩ => ⟨hsame, hwide, hvalid⟩⟩

namespace AlikeInGaps

theorem ownMatch?_eq (h : s.AlikeInGaps t) (hvalid : (Regex.read? s.source).isSome)
    (hs : (prepare [s]).program?.isSome) (ht : (prepare [t]).program?.isSome)
    {front : List Char} {p : Regex.Place} (htext : GapsDoubled (front ++ p.rest)) :
    s.ownMatch? p = t.ownMatch? p := by
  by_cases hnil : strip s.pattern.toList = []
  · exact ownMatch?_of_source_eq (h.source_eq hnil) p
  · rw [Substitution.ownMatch?_eq h.kind_left hvalid hs hnil htext,
      Substitution.ownMatch?_eq h.kind_right (h.valid ▸ hvalid) ht
        (mt h.strip_eq_nil_iff.2 hnil) htext]
    have hspelled : s.IsSpelledAt p ↔ t.IsSpelledAt p := by
      rw [IsSpelledAt, IsSpelledAt, h.spelled_eq]
    rw [h.spelled_eq]
    exact if_congr (and_congr (not_congr h.wide) hspelled) rfl rfl

/-- By themselves both do the same at every place of a working text. -/
theorem ownEffect?_eq (h : s.AlikeInGaps t) (hvalid : (Regex.read? s.source).isSome)
    (hs : (prepare [s]).program?.isSome) (ht : (prepare [t]).program?.isSome)
    {front : List Char} {p : Regex.Place} (htext : GapsDoubled (front ++ p.rest)) :
    s.ownEffect? p = t.ownEffect? p := by
  have hreplaced : s.ownReplacement = t.ownReplacement := by
    funext m
    rw [ownReplacement, ownReplacement, h.kind_left, h.kind_right, h.replacement]
  rw [ownEffect?, ownEffect?, h.ownMatch?_eq hvalid hs ht htext, hreplaced]

end AlikeInGaps

/-- The valid ones of such literals are in the same places. -/
theorem forall₂_valid {items items' : List Substitution}
    (h : List.Forall₂ AlikeInGaps items items') :
    List.Forall₂ AlikeInGaps (valid items) (valid items') := by
  induction h with
  | nil => exact .nil
  | @cons s t items items' hst _ ih =>
    rw [valid, valid, List.filter_cons, List.filter_cons, ← hst.valid]
    split
    · exact .cons hst ih
    · exact ih

end Substitution

/-- A literal has no comments. -/
theorem Substitution.staysInside_of_literal {s : Substitution} (h : s.kind = .literal) :
    s.StaysInside := fun hkind _ => by
  rw [h] at hkind
  cases hkind

/-- The replacement of a literal refers to nothing. -/
theorem Alternative.refersWithin_of_literal {a : Alternative} (h : a.item.kind = .literal) :
    a.RefersWithin := fun hkind => by
  rw [h] at hkind
  cases hkind

/-! ## Lists of literals -/

namespace Program

open Substitution

variable {items items' : List Substitution} {program program' : Program}

/-- A list of literals does at every place what the first of them does there by itself. -/
theorem effect?_of_literals (hkind : ∀ s ∈ items, s.kind = .literal)
    (hprogram : (prepare items).program? = some program) (hne : program.alternatives ≠ [])
    (p : Regex.Place) : program.effect? p = (valid items).findSome? fun s => s.ownEffect? p := by
  have hitem : ∀ a ∈ program.alternatives, a.item ∈ items := by
    intro a ha
    rw [alternatives_of_prepare hprogram] at ha
    have hvalid : a.item ∈ valid items := item_number 1 items ▸ List.mem_map_of_mem ha
    exact List.mem_of_mem_filter hvalid
  exact effect?_eq_findSome? (fun s hs => staysInside_of_literal (hkind s hs))
    (fun s hs => countsGroups_of_literal (hkind s hs)) hprogram hne
    (fun a ha => Alternative.refersWithin_of_literal (hkind _ (hitem a ha))) p

/-- In a list of literals that can be used, the valid ones can be used by themselves. -/
theorem isSome_own_of_mem_valid (hkind : ∀ s ∈ items, s.kind = .literal)
    (hprogram : (prepare items).program? = some program) (hne : program.alternatives ≠ [])
    {s : Substitution} (hs : s ∈ valid items) : (prepare [s]).program?.isSome := by
  have hinside : ∀ s ∈ items, s.StaysInside := fun s hs => staysInside_of_literal (hkind s hs)
  obtain ⟨as, branches, hitems, -, -, hraised, -⟩ := exists_raised hinside hprogram hne
  rw [← hitems] at hs
  obtain ⟨a, ha, rfl⟩ := List.mem_map.1 hs
  obtain ⟨branch, -, hab⟩ := exists_mem_of_forall₂ hraised.flip ha
  obtain ⟨body, hown, -⟩ := hab.own
  rw [hown]
  rfl

/-- Lists without valid items are prepared alike. -/
theorem eq_of_alternatives_eq_nil (hprogram : (prepare items).program? = some program)
    (hprogram' : (prepare items').program? = some program') (hnil : program.alternatives = [])
    (hnil' : program'.alternatives = []) : program = program' := by
  rw [prepare, ← alternatives_of_prepare hprogram, hnil] at hprogram
  rw [prepare, ← alternatives_of_prepare hprogram', hnil'] at hprogram'
  generalize Regex.read? (joinedSource []) = r at hprogram hprogram'
  cases r with
  | none => cases hprogram
  | some r => exact Option.some.inj (hprogram.symm.trans hprogram')

theorem length_alternatives (hprogram : (prepare items).program? = some program) :
    program.alternatives.length = (valid items).length := by
  rw [alternatives_of_prepare hprogram, ← item_number 1, List.length_map]

/-- Lists of literals whose gaps do not matter do the same at every place of a working text. -/
theorem effect?_of_alikeInGaps (h : List.Forall₂ AlikeInGaps items items')
    (hprogram : (prepare items).program? = some program)
    (hprogram' : (prepare items').program? = some program') {front : List Char} {p : Regex.Place}
    (htext : GapsDoubled (front ++ p.rest)) : program.effect? p = program'.effect? p := by
  have hkind : ∀ s ∈ items, s.kind = .literal := fun s hs => by
    obtain ⟨t, -, hst⟩ := exists_mem_of_forall₂ h.flip hs
    exact hst.kind_left
  have hkind' : ∀ t ∈ items', t.kind = .literal := fun t ht => by
    obtain ⟨s, -, hst⟩ := exists_mem_of_forall₂ h ht
    exact hst.kind_right
  have hlength : program.alternatives.length = program'.alternatives.length := by
    rw [length_alternatives hprogram, length_alternatives hprogram', (forall₂_valid h).length_eq]
  -- a list without valid items has no branches, and its expression is that of every such list
  by_cases hnil : program.alternatives = []
  · have hnil' : program'.alternatives = [] := by
      rw [← List.length_eq_zero_iff, ← hlength, hnil, List.length_nil]
    rw [eq_of_alternatives_eq_nil hprogram hprogram' hnil hnil']
  · have hnil' : program'.alternatives ≠ [] := by
      rw [← List.length_pos_iff, ← hlength, List.length_pos_iff]
      exact hnil
    rw [effect?_of_literals hkind hprogram hnil, effect?_of_literals hkind' hprogram' hnil']
    refine findSome?_eq_of_forall₂ (forall₂_valid h) fun s hs t ht hst => ?_
    exact hst.ownEffect?_eq (List.mem_filter.1 hs).2
      (isSome_own_of_mem_valid hkind hprogram hnil hs)
      (isSome_own_of_mem_valid hkind' hprogram' hnil' ht) htext

end Program

namespace Substitutions

open Substitution

/-- **The width of the gaps of literals does not matter** as long as it is one or two spaces. Lists
of literals that differ in the widths of their gaps make the same of every text, if they can both be
used or neither of them, and if of each two literals both have a wide gap or neither has. A literal
with a wide gap replaces nothing. -/
theorem apply_of_alikeInGaps {items items' : List Substitution}
    (h : List.Forall₂ AlikeInGaps items items')
    (hprogram : (prepare items).program?.isSome = (prepare items').program?.isSome)
    (text : String) :
    (ofList items).apply text = (ofList items').apply text ∧
      ∀ s ∈ items, s.IsWide → s.Misses text := by
  constructor
  · -- a list without items, or one that cannot be used, leaves every text as it is
    by_cases hne : items = []
    · subst hne
      cases h
      rfl
    have hne' : items' ≠ [] := by
      rintro rfl
      cases h
      exact hne rfl
    cases hfound : (prepare items).program? with
    | none =>
      have hfound' : (prepare items').program? = Option.none := by
        rw [← Option.not_isSome_iff_eq_none, ← hprogram, hfound]
        decide
      rw [apply_of_program?_eq_none hfound, apply_of_program?_eq_none hfound']
    | some program =>
      obtain ⟨program', hfound'⟩ : ∃ program', (prepare items').program? = some program' := by
        rw [← Option.isSome_iff_exists, ← hprogram, hfound]
        rfl
      rw [apply_of_program? hne hfound, apply_of_program? hne' hfound',
        Program.replaceAll_of_effects fun q hq => ?_]
      obtain ⟨front, htext⟩ := exists_gapsDoubled hq
      exact Program.effect?_of_alikeInGaps h hfound hfound' htext
  · intro s hs hwide
    obtain ⟨t, -, hst⟩ := Program.exists_mem_of_forall₂ h.flip hs
    exact misses_of_isWide hst.kind_left hwide text

theorem apply_of_alikeInGaps_way :
    (ofList [literal " by  the way " "besides", literal "in   short" "so"]).apply
          "In short BY the way  yes" =
        (ofList [literal " by the way " "besides", literal "in    short" "so"]).apply
          "In short BY the way  yes" ∧
      (literal "in   short" "so").Misses "In short BY the way  yes" := by
  have halike : List.Forall₂ AlikeInGaps
      [literal " by  the way " "besides", literal "in   short" "so"]
      [literal " by the way " "besides", literal "in    short" "so"] :=
    .cons (by decide +kernel) (.cons (by decide +kernel) .nil)
  have happly := apply_of_alikeInGaps halike (by decide +kernel) "In short BY the way  yes"
  exact ⟨happly.1, happly.2 _ (by decide) (by decide +kernel)⟩

/-- A gap of three spaces asks for three spaces of a text whose gaps are two spaces wide. -/
theorem apply_differs_wide_gap :
    (literal "by   the way" "besides").SameButGaps (literal "by the way" "besides") ∧
      (ofList [literal "by   the way" "besides"]).apply "by the way" = "by the way" ∧
      (ofList [literal "by the way" "besides"]).apply "by the way" = "besides" := by
  decide +kernel

end Substitutions

end Parley
