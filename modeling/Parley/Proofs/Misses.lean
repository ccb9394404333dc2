import Parley.Proofs.References
import Parley.Proofs.Regex.Comparing
import Parley.Proofs.Spaces

/-!
# Items that match nothing

A list of substitutions makes of a text the words of it with single spaces between them, and changes
nothing else if none of its items matches anything. An item that matches nothing can be left out or
put in at any place of a list, as long as the list is not the one without items, which leaves the
spaces of a text as they are.

Main results:

* `Program.effect?_eq_findSome?` — what a list does at a place;
* `Substitutions.apply_of_misses` — items that match nothing change nothing.
-/

namespace Parley

open Text

/-! ## Own replacements -/

/-- Whether the numbers that an expression refers to can be added to that of the group around it. -/
def Alternative.RefersWithin (a : Alternative) : Prop :=
  a.item.kind = .expression → ∀ parts, Reads a.item.replacement.toList parts →
    ∀ digits, ReplacementPart.reference digits ∈ parts →
      a.group + referenceNumber digits < UInt64.size

namespace Substitution

/-- The text that an item puts in the place of a match of its own, when it is a list by itself. -/
def ownReplacement (s : Substitution) (own : Regex.Match) : List Char :=
  Program.keepSpaces own.text (match s.kind with
    | .literal => s.replacement.toList
    | .expression => expandReferences (fun n => (own.group? (1 + n)).getD []) none
        s.replacement.toList)

/-- What an item does at a place when it is a list by itself: where its match there starts and ends,
and what it puts in the place of the match. -/
def ownEffect? (s : Substitution) (p : Regex.Place) :
    Option (Regex.Place × Regex.Place × List Char) :=
  (s.ownMatch? p).map fun m => (m.start, m.stop, s.ownReplacement m)

end Substitution

namespace Program

open Substitution

/-- What a list does at a place. -/
def effect? (program : Program) (p : Regex.Place) :
    Option (Regex.Place × Regex.Place × List Char) :=
  (Regex.matchAt program.regex p).map fun m => (m.start, m.stop, program.replacement m)

/-- A list puts the same text in the place of the match. -/
theorem replacement_raise {program : Program} {a : Alternative} {own : Regex.Match}
    (ha : program.through? (own.raise (a.group - 1)) = some a) (hpos : 0 < a.group)
    (hwhole : own.group? 1 = some own.text) (hwithin : a.RefersWithin) :
    program.replacement (own.raise (a.group - 1)) = a.item.ownReplacement own := by
  rw [replacement_of_through? ha, Alternative.group?_raise hpos, hwhole, Option.getD_some,
    ownReplacement]
  congr 1
  cases hkind : a.item.kind with
  | literal => rfl
  | expression =>
    obtain ⟨parts, hparts⟩ := exists_reads a.item.replacement.toList
    dsimp only
    rw [expandReferences_eq _ hparts, expandReferences_eq _ hparts]
    refine List.flatMap_congr fun part hpart => ?_
    cases part with
    | char c => rfl
    | reference digits =>
      have hlt := hwithin hkind parts hparts digits hpart
      -- a reference to a group of the item is the only part in which the numbers matter
      rw [ReplacementPart.expand, ReplacementPart.expand, Alternative.capture?_raise hpos hlt]

end Program

/-! ## Inserting an item -/

namespace Substitution

theorem exists_mem_number_of_le {items : List Substitution} {k k' : Nat} (hle : k ≤ k')
    {b : Alternative} (hb : b ∈ number k items) :
    ∃ a ∈ number k' items, a.item = b.item ∧ b.group ≤ a.group := by
  induction items generalizing k k' with
  | nil => cases hb
  | cons t items ih =>
    rw [number] at hb ⊢
    split at hb
    · rcases List.mem_cons.1 hb with rfl | hb
      · exact ⟨_, List.mem_cons_self, rfl, hle⟩
      · obtain ⟨a, ha, hab⟩ :=
          ih (Nat.add_le_add_right (Nat.add_le_add_right hle 1) _) hb
        exact ⟨a, List.mem_cons_of_mem _ ha, hab⟩
    · exact ih hle hb

/-- Another item only makes the numbers of the items behind it larger. -/
theorem exists_mem_number_insert {front behind : List Substitution} {k : Nat} (s : Substitution)
    {b : Alternative} (hb : b ∈ number k (front ++ behind)) :
    ∃ a ∈ number k (front ++ s :: behind), a.item = b.item ∧ b.group ≤ a.group := by
  induction front generalizing k with
  | nil =>
    rw [List.nil_append, number]
    split
    -- the groups of the item that is put in come before those of all the others
    · obtain ⟨a, ha, hab⟩ :=
        exists_mem_number_of_le (Nat.le_trans (Nat.le_succ k) (Nat.le_add_right _ _)) hb
      exact ⟨a, List.mem_cons_of_mem _ ha, hab⟩
    · exact ⟨b, hb, rfl, Nat.le_refl _⟩
  | cons t front ih =>
    rw [List.cons_append, number] at hb ⊢
    split at hb
    · rcases List.mem_cons.1 hb with rfl | hb
      · exact ⟨_, List.mem_cons_self, rfl, Nat.le_refl _⟩
      · obtain ⟨a, ha, hab⟩ := ih hb
        exact ⟨a, List.mem_cons_of_mem _ ha, hab⟩
    · exact ih hb

/-- An item for which nothing is found does not matter to what is found first. -/
theorem findSome?_valid_insert {α : Type} {f : Substitution → Option α} {s : Substitution}
    (hs : (Regex.read? s.source).isSome → f s = none) (front behind : List Substitution) :
    (valid (front ++ s :: behind)).findSome? f = (valid (front ++ behind)).findSome? f := by
  rw [valid, valid, List.filter_append, List.filter_append, List.findSome?_append,
    List.findSome?_append, List.filter_cons]
  split
  · next hvalid => rw [List.findSome?_cons, hs hvalid]
  · rfl

end Substitution

/-! ## Items without a match -/

namespace Substitution

/-- Whether an item stays in its parentheses: it does not end in a comment that takes the closing
one. -/
def StaysInside (s : Substitution) : Prop :=
  s.kind = .expression → Regex.EndsVerbose s.source → (prepare [s]).program?.isSome

/-- Whether an item by itself replaces nothing in a text. -/
def Misses (s : Substitution) (text : String) : Prop :=
  ∀ own, (prepare [s]).program? = some own →
    ∀ m ∈ own.regex.allMatches (Substitutions.workingText (breakWords text.toList)),
      own.through? m = none

instance (s : Substitution) : Decidable s.StaysInside :=
  inferInstanceAs (Decidable (_ → _ → _))

instance (s : Substitution) (text : String) : Decidable (s.Misses text) :=
  decidable_of_iff ((prepare [s]).program?.all fun own =>
    (own.regex.allMatches (Substitutions.workingText (breakWords text.toList))).all fun m =>
      (own.through? m).isNone) <| by
    simp [Misses, Option.all_eq_true, List.all_eq_true]

/-- An item that is not a valid expression replaces nothing. -/
theorem misses_of_invalid {s : Substitution} (h : (Regex.read? s.source).isSome = false)
    (text : String) : s.Misses text := by
  intro own hown m _
  have hnone : Regex.read? s.source = none :=
    Option.not_isSome_iff_eq_none.1 (by rw [h]; decide)
  have hnumber : number 1 [s] = [] := by
    rw [number, hnone]
    rfl
  rw [Program.through?, alternatives_of_prepare hown, hnumber]
  rfl

/-- An item that replaces nothing in a text matches at no place of it. -/
theorem ownMatch?_eq_none_of_misses {s : Substitution} (hvalid : (Regex.read? s.source).isSome)
    {text : String} (h : s.Misses text) {q : Regex.Place}
    (hq : (Regex.Place.ofText
      (Substitutions.workingText (breakWords text.toList))).Reaches q) :
    s.ownMatch? q = none := by
  rw [ownMatch?]
  cases hown : (prepare [s]).program? with
  | none => rfl
  | some own =>
    obtain ⟨body, rfl, habove⟩ := Program.exists_group_of_prepare hvalid hown
    refine Regex.matchAt_eq_none_of_allMatches_eq_nil ?_ hq
    refine List.eq_nil_iff_forall_not_mem.2 fun m hm => ?_
    -- a match takes the group around the item, so that it is replaced through the item
    have hwhole := (Regex.group?_of_matchAt_group habove (Regex.reaches_of_mem_allMatches hm).2).1
    have hnone := h _ hown m hm
    rw [Program.through?, List.find?_cons_of_pos (by rw [hwhole]; rfl)] at hnone
    cases hnone

end Substitution

namespace Program

open Substitution

section Lists

variable {items : List Substitution} {program : Program}

/-- Items that replace nothing replace nothing together. -/
theorem replaceAll_of_misses (hinside : ∀ s ∈ items, s.StaysInside)
    (hprogram : (prepare items).program? = some program) {text : String}
    (h : ∀ s ∈ items, s.Misses text) :
    program.regex.replaceAll program.replacement
        (Substitutions.workingText (breakWords text.toList)) =
      Substitutions.workingText (breakWords text.toList) := by
  by_cases hne : program.alternatives = []
  · -- without valid items, nothing is replaced by nothing everywhere
    have hregex : program.regex = .empty := by
      rw [prepare, ← alternatives_of_prepare hprogram, hne] at hprogram
      have hread : Regex.read? (joinedSource []) = some .empty := by decide +kernel
      rw [hread] at hprogram
      exact (congrArg Program.regex (Option.some.inj hprogram)).symm
    refine Regex.replaceAll_of_text (fun m hm => ?_) _
    rw [hregex] at hm
    obtain ⟨-, n, hway⟩ := Regex.exists_way_of_matchAt hm
    have hstop : m.stop = m.start := congrArg Regex.Outcome.place (Regex.way_empty.1 hway).2
    rw [Regex.Match.text, hstop, Nat.sub_self, List.take_zero, replacement, hne]
    rfl
  · refine Regex.replaceAll_of_allMatches_eq_nil ?_ _
    refine List.eq_nil_iff_forall_not_mem.2 fun m hm => ?_
    obtain ⟨hplace, hmatch⟩ := Regex.reaches_of_mem_allMatches hm
    obtain ⟨s, hs, m', hm'⟩ := exists_ownMatch?_of_matchAt hinside hprogram hne hmatch
    obtain ⟨hitem, hread⟩ := List.mem_filter.1 hs
    rw [ownMatch?_eq_none_of_misses hread (h s hitem) hplace] at hm'
    cases hm'

/-- Without a match at a place, no item matches there by itself. -/
theorem find?_eq_none_of_matchAt_eq_none (hinside : ∀ s ∈ items, s.StaysInside)
    (hcounts : ∀ s ∈ items, s.CountsGroups)
    (hprogram : (prepare items).program? = some program) (hne : program.alternatives ≠ [])
    {p : Regex.Place} (h : Regex.matchAt program.regex p = none) :
    program.alternatives.find? (fun a => (a.item.ownMatch? p).isSome) = none := by
  rw [matchAt_eq_findSome? hinside (fun s hs _ => hcounts s hs) hprogram hne,
    List.findSome?_eq_none_iff] at h
  refine List.find?_eq_none.2 fun a ha => ?_
  rw [Option.map_eq_none_iff.1 (h a ha)]
  decide

/-- A match of a list is replaced as the first item that matches there by itself replaces its own
match. -/
theorem exists_ownReplacement (hinside : ∀ s ∈ items, s.StaysInside)
    (hcounts : ∀ s ∈ items, s.CountsGroups)
    (hprogram : (prepare items).program? = some program) (hne : program.alternatives ≠ [])
    (hwithin : ∀ a ∈ program.alternatives, a.RefersWithin) {p : Regex.Place} {m : Regex.Match}
    (h : Regex.matchAt program.regex p = some m) :
    ∃ a m', program.alternatives.find? (fun a => (a.item.ownMatch? p).isSome) = some a ∧
      a.item.ownMatch? p = some m' ∧ m.start = m'.start ∧ m.stop = m'.stop ∧
      program.replacement m = a.item.ownReplacement m' := by
  obtain ⟨a, own, m', hthrough, hfound, hnumber, hown, -, hm', rfl, hwhole⟩ :=
    exists_own_of_matchAt hinside (fun s hs _ => hcounts s hs) hprogram hne h
  refine ⟨a, m', hfound, ?_, rfl, rfl, replacement_raise hthrough (le_group_of_mem_number hnumber)
    hwhole (hwithin a (List.mem_of_find?_eq_some hfound))⟩
  rw [ownMatch?, hown]
  exact hm'

/-- **A list does at every place what the first of its valid items does there by itself** that does
anything. -/
theorem effect?_eq_findSome? (hinside : ∀ s ∈ items, s.StaysInside)
    (hcounts : ∀ s ∈ items, s.CountsGroups)
    (hprogram : (prepare items).program? = some program) (hne : program.alternatives ≠ [])
    (hwithin : ∀ a ∈ program.alternatives, a.RefersWithin) (p : Regex.Place) :
    program.effect? p = (valid items).findSome? fun s => s.ownEffect? p := by
  rw [effect?, ← item_number 1 items, ← alternatives_of_prepare hprogram, List.findSome?_map]
  refine Eq.symm ?_
  cases hm : Regex.matchAt program.regex p with
  -- if the joined expression does not match, no item does alone
  | none =>
    have hnone := find?_eq_none_of_matchAt_eq_none hinside hcounts hprogram hne hm
    refine List.findSome?_eq_none_iff.2 fun a ha => ?_
    have hown := List.find?_eq_none.1 hnone a ha
    rw [Option.not_isSome_iff_eq_none] at hown
    rw [Function.comp_apply, ownEffect?, hown, Option.map_none]
  | some m =>
    obtain ⟨a, m', hfound, hown, hstart, hstop, hreplaced⟩ :=
      exists_ownReplacement hinside hcounts hprogram hne hwithin hm
    -- the item whose group matched is the first that matches alone
    obtain ⟨-, front, behind, hsplit, hfront⟩ := List.find?_eq_some_iff_append.1 hfound
    refine List.findSome?_eq_some_iff.2 ⟨front, a, behind, hsplit, ?_, fun b hb => ?_⟩
    · rw [Function.comp_apply, ownEffect?, hown, Option.map_some, ← hstart, ← hstop, ← hreplaced]
    · have hnone := hfront b hb
      rw [Bool.not_eq_true', ← Bool.not_eq_true, Option.not_isSome_iff_eq_none] at hnone
      rw [Function.comp_apply, ownEffect?, hnone, Option.map_none]

end Lists

/-- Lists that do the same at all places of a text make the same of it. -/
theorem replaceAll_of_effects {program other : Program} {text : List Char}
    (h : ∀ q, (Regex.Place.ofText text).Reaches q → program.effect? q = other.effect? q) :
    program.regex.replaceAll program.replacement text =
      other.regex.replaceAll other.replacement text := by
  refine Regex.replaceAll_congr fun q hq => ?_
  have heffect := h q hq
  rw [effect?, effect?] at heffect
  -- the effects tell whether there is a match, where it ends and what replaces it
  cases hm : Regex.matchAt program.regex q with
  | none =>
    rw [hm, Option.map_none, eq_comm, Option.map_eq_none_iff] at heffect
    rw [heffect]
    exact .none
  | some m =>
    rw [hm, Option.map_some, eq_comm] at heffect
    obtain ⟨m', hm', hsame⟩ := Option.map_eq_some_iff.1 heffect
    obtain ⟨hstart, hstop, hreplaced⟩ : m'.start = m.start ∧ m'.stop = m.stop ∧
        other.replacement m' = program.replacement m := by
      simpa only [Prod.mk.injEq] using hsame
    rw [hm']
    exact .some ⟨hstart.symm, hstop.symm, hreplaced.symm⟩

/-- **An item that replaces nothing in a text changes nothing of what a list makes of it.** -/
theorem replaceAll_insert {front behind : List Substitution} {s : Substitution}
    {program longer : Program}
    (hprogram : (prepare (front ++ behind)).program? = some program)
    (hlonger : (prepare (front ++ s :: behind)).program? = some longer)
    (hinside : ∀ t ∈ front ++ s :: behind, t.StaysInside)
    (hcounts : ∀ t ∈ front ++ s :: behind, t.CountsGroups)
    (hwithin : ∀ a ∈ longer.alternatives, a.RefersWithin) {text : String}
    (hmisses : s.Misses text) :
    longer.regex.replaceAll longer.replacement
        (Substitutions.workingText (breakWords text.toList)) =
      program.regex.replaceAll program.replacement
        (Substitutions.workingText (breakWords text.toList)) := by
  have hsub : ∀ t ∈ front ++ behind, t ∈ front ++ s :: behind := by
    intro t ht
    rw [List.mem_append, List.mem_cons]
    exact (List.mem_append.1 ht).imp_right Or.inr
  have hinside' : ∀ t ∈ front ++ behind, t.StaysInside := fun t ht => hinside t (hsub t ht)
  have hcounts' : ∀ t ∈ front ++ behind, t.CountsGroups := fun t ht => hcounts t (hsub t ht)
  have hbelow : ∀ b ∈ program.alternatives,
      ∃ a ∈ longer.alternatives, a.item = b.item ∧ b.group ≤ a.group := by
    rw [alternatives_of_prepare hprogram, alternatives_of_prepare hlonger]
    exact fun b hb => exists_mem_number_insert s hb
  by_cases hnil : program.alternatives = []
  · -- no other item is a valid expression, so that none of them replaces anything
    have hall : ∀ t ∈ front ++ behind, t.Misses text := by
      intro t ht
      refine misses_of_invalid (Bool.eq_false_iff.2 fun hvalid => ?_) text
      have hmem : t ∈ valid (front ++ behind) := List.mem_filter.2 ⟨ht, hvalid⟩
      rw [← item_number 1, ← alternatives_of_prepare hprogram, hnil] at hmem
      cases hmem
    rw [replaceAll_of_misses hinside' hprogram hall]
    refine replaceAll_of_misses hinside hlonger fun t ht => ?_
    rw [List.mem_append, List.mem_cons] at ht
    rcases ht with ht | rfl | ht
    · exact hall t (List.mem_append_left behind ht)
    · exact hmisses
    · exact hall t (List.mem_append_right front ht)
  · have hne : longer.alternatives ≠ [] := by
      obtain ⟨b, hb⟩ := List.exists_mem_of_ne_nil _ hnil
      obtain ⟨a, ha, -⟩ := hbelow b hb
      exact List.ne_nil_of_mem ha
    have hwithin' : ∀ b ∈ program.alternatives, b.RefersWithin := by
      intro b hb hkind parts hparts digits hdigits
      obtain ⟨a, ha, hitem, hle⟩ := hbelow b hb
      exact Nat.lt_of_le_of_lt (Nat.add_le_add_right hle _)
        (hwithin a ha (hitem ▸ hkind) parts (hitem ▸ hparts) digits hdigits)
    refine replaceAll_of_effects fun q hq => ?_
    rw [effect?_eq_findSome? hinside hcounts hlonger hne hwithin,
      effect?_eq_findSome? hinside' hcounts' hprogram hnil hwithin']
    -- the item does nothing at the place, so that the same item is the first one that does
    refine findSome?_valid_insert (fun hvalid => ?_) front behind
    rw [ownEffect?, ownMatch?_eq_none_of_misses hvalid hmisses hq, Option.map_none]

end Program

namespace Substitutions

open Substitution

theorem apply_of_program? {items : List Substitution} {program : Program} (hne : items ≠ [])
    (hprogram : (prepare items).program? = some program) (text : String) :
    (ofList items).apply text = String.ofList (joinWords (breakWords
      (program.regex.replaceAll program.replacement (workingText (breakWords text.toList))))) := by
  unfold apply
  split
  · next h => exact absurd h hne
  · next h _ => exact absurd (hprogram.symm.trans h) (by simp)
  · next found h _ =>
    obtain rfl := Option.some.inj (hprogram.symm.trans h)
    rfl

/-- **What is made of a text has single spaces between its words**, if there is an item at all and
the list can be used. Items that replace nothing by themselves leave the words of the text, and one
more of them changes no result. -/
theorem apply_of_misses {items : List Substitution} {program : Program} (hne : items ≠ [])
    (hprogram : (prepare items).program? = some program) (text : String) :
    unwords (words ((ofList items).apply text)) = (ofList items).apply text ∧
      ((∀ s ∈ items, s.StaysInside) → (∀ s ∈ items, s.Misses text) →
        (ofList items).apply text = unwords (words text)) ∧
      ∀ front behind s longer, items = front ++ behind →
        (prepare (front ++ s :: behind)).program? = some longer →
        (∀ t ∈ front ++ s :: behind, t.StaysInside ∧ t.CountsGroups) →
        (∀ a ∈ longer.alternatives, a.RefersWithin) → s.Misses text →
        (ofList (front ++ s :: behind)).apply text = (ofList items).apply text := by
  refine ⟨unwords_words_apply hne hprogram text, fun hinside hmisses => ?_, ?_⟩
  · rw [apply_of_program? hne hprogram, Program.replaceAll_of_misses hinside hprogram hmisses,
      breakWords_workingText_breakWords]
    simp [words, unwords]
  · rintro front behind s longer rfl hlonger hall hwithin hmisses
    rw [apply_of_program? hne hprogram, apply_of_program? (by simp) hlonger,
      Program.replaceAll_insert hprogram hlonger (fun t ht => (hall t ht).1)
        (fun t ht => (hall t ht).2) hwithin hmisses]

/-- One word for another one. -/
def yourself : Substitution := literal " u " " you "

/-- Numbers without their percent signs. -/
def bare : Substitution :=
  { pattern := "(\\d+)%", replacement := "$1", kind := .expression }

theorem apply_of_misses_bare :
    (ofList [yourself]).apply "a  5% b" = unwords (words "a  5% b") ∧
      (ofList [bare, yourself]).apply " u  r 5 " = (ofList [yourself]).apply " u  r 5 " ∧
      (ofList [yourself]).apply " u  r 5 " = "you r 5" := by
  obtain ⟨program, hprogram⟩ :=
    Option.isSome_iff_exists.1 (show (prepare [yourself]).program?.isSome by decide +kernel)
  obtain ⟨longer, hlonger⟩ :=
    Option.isSome_iff_exists.1 (show (prepare [bare, yourself]).program?.isSome by decide +kernel)
  have hall : ∀ t ∈ [bare, yourself], t.StaysInside ∧ t.CountsGroups := by decide +kernel
  have hinside : ∀ t ∈ [yourself], t.StaysInside := by decide +kernel
  have hnumber : number 1 [bare, yourself] = [⟨bare, 1⟩, ⟨yourself, 3⟩] := by decide +kernel
  have hreads : Reads bare.replacement.toList [.reference ['1']] :=
    .reference (by decide) (List.forall_mem_singleton.2 (by decide +kernel))
      (fun _ hd => by cases hd) .nil
  have hwithin : ∀ a ∈ longer.alternatives, a.RefersWithin := by
    rw [alternatives_of_prepare hlonger, hnumber]
    intro a ha hkind parts hparts digits hdigits
    rw [List.mem_cons, List.mem_singleton] at ha
    rcases ha with rfl | rfl
    · obtain rfl := hparts.unique hreads
      obtain rfl : digits = ['1'] := by simpa using hdigits
      decide +kernel
    · cases hkind
  refine ⟨(apply_of_misses (by decide) hprogram _).2.1 hinside (by decide +kernel), ?_,
    by decide +kernel⟩
  exact (apply_of_misses (by decide) hprogram _).2.2 [] [yourself] bare longer rfl hlonger hall
    hwithin (by decide +kernel)

/-- A list without items leaves the spaces of a text, and so an item that replaces nothing changes
the result. -/
theorem apply_none_not_spaced :
    (ofList []).apply "a  b" = "a  b" ∧
      unwords (words ((ofList []).apply "a  b")) ≠ (ofList []).apply "a  b" ∧
      yourself.Misses "a  b" ∧ (ofList [yourself]).apply "a  b" ≠ (ofList []).apply "a  b" := by
  decide +kernel

end Substitutions

end Parley
