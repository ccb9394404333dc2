import Mathlib.Data.List.Perm.Basic
import Parley.Substitution
import Parley.Proofs.Regex.Plain

/-!
# Combining substitutions

The substitutions of a list are checked one by one, but used as the alternatives of one expression.
An item that is good alone can therefore be bad together with others.

Main results:

* `Substitution.usable_iff_namesApart` — a list can be used if and only if no two of its items name
  a group alike;
* `Substitution.namesApart_of_literal` — literals name no groups.
-/

namespace Parley

open Text

/-- A list that cannot be used changes nothing. -/
theorem Substitutions.apply_of_program?_eq_none {list : Substitutions}
    (h : list.prepared.program? = Option.none) (text : String) : list.apply text = text := by
  unfold apply
  split
  · rfl
  · rfl
  · next hprogram _ => cases h.symm.trans hprogram

namespace Substitution

/-- What a literal is read as: its characters, and a space at each end where the pattern has one. -/
def parts (f : Regex.Flags) (s : Substitution) : List Regex :=
  (if s.pattern.toList.head? == some ' ' then [Regex.charExpr f ' '] else []) ++
    (strip s.pattern.toList).map (Regex.literalPart f) ++
      (if s.pattern.toList.getLast? == some ' ' then [Regex.charExpr f ' '] else [])

theorem plain_source (f : Regex.Flags) {s : Substitution} (h : s.kind = .literal) :
    Regex.Plain f s.source (s.parts f) := by
  have hend : ∀ b : Bool, Regex.Plain f (if b then [' '] else [])
      (if b then [Regex.charExpr f ' '] else []) := by
    intro b
    cases b with
    | false => exact .nil
    | true => exact .char (by decide) .nil
  have hbody : Regex.Plain f s.body ((strip s.pattern.toList).map (Regex.literalPart f)) := by
    rw [body, h]
    exact Regex.plain_escape f _
  exact ((hend _).append hbody).append (hend _)

/-- A literal is always a valid expression, of any size. -/
theorem readState?_source {s : Substitution} (h : s.kind = .literal) :
    Regex.readState? s.source = some { items := ((s.parts {}).map Regex.Item.expr).reverse } :=
  (plain_source {} h).readState?_eq

/-! ## Lists -/

/-- The items that are valid expressions with their boundaries. -/
def valid (items : List Substitution) : List Substitution :=
  items.filter fun s => (Regex.read? s.source).isSome

theorem item_number (next : Nat) (items : List Substitution) :
    (number next items).map Alternative.item = valid items := by
  induction items generalizing next with
  | nil => rfl
  | cons s rest ih =>
    rw [number]
    cases hread : Regex.read? s.source with
    | some r =>
      rw [valid, List.filter_cons_of_pos (by rw [hread]; rfl)]
      exact congrArg (s :: ·) (ih _)
    | none =>
      rw [valid, List.filter_cons_of_neg (by rw [hread]; simp)]
      exact ih _

theorem joinedSource_number (items : List Substitution) :
    joinedSource (number 1 items) = Regex.alternation ((valid items).map source) := by
  rw [joinedSource, Regex.alternation, Regex.grouped, ← item_number 1, List.map_map, List.map_map]
  rfl

/-- Whether no two valid items name a group alike. -/
def NamesApart (items : List Substitution) : Prop :=
  ((valid items).map fun s => Regex.groupNames s.source).Pairwise List.Disjoint

/-- The order does not matter for this. -/
theorem NamesApart.perm {items items' : List Substitution} (h : items.Perm items') :
    NamesApart items ↔ NamesApart items' :=
  ((h.filter _).map _).pairwise_iff fun hdisjoint => List.disjoint_comm.1 hdisjoint

theorem isSome_readState? {text : List Char} (h : (Regex.read? text).isSome) :
    (Regex.readState? text).isSome := by
  rw [Regex.read?] at h
  rw [Regex.readState?]
  cases hread : Regex.readFrom (text.length + 1) {} text with
  | none =>
    rw [hread] at h
    cases h
  | some st => rfl

theorem isSome_program? (items : List Substitution) :
    (prepare items).program?.isSome = (Regex.read? (joinedSource (number 1 items))).isSome := by
  rw [prepare]
  cases Regex.read? (joinedSource (number 1 items)) <;> rfl

/-- Whether an expression is not refused for its size. -/
def Fits (text : List Char) : Prop := (Regex.readState? text).isSome → (Regex.read? text).isSome

theorem isSome_readState?_of_program? {s : Substitution} (hs : (Regex.read? s.source).isSome)
    (h : (prepare [s]).program?.isSome) :
    (Regex.readState? (Regex.alternation [s.source])).isSome := by
  have hvalid : valid [s] = [s] := List.filter_cons_of_pos hs
  rw [isSome_program?, joinedSource_number, hvalid] at h
  exact isSome_readState? h

/-- Literals are never in the way of each other. -/
theorem namesApart_of_literal {items : List Substitution} (h : ∀ s ∈ items, s.kind = .literal) :
    NamesApart items := by
  have hnames : ∀ s ∈ valid items, Regex.groupNames s.source = [] := by
    intro s hs
    rw [Regex.groupNames_of_readState? (readState?_source (h s (List.mem_filter.1 hs).1))]
  refine List.pairwise_map.2 (List.pairwise_of_forall_mem_list fun s hs t _ => ?_)
  rw [hnames s hs]
  exact List.disjoint_nil_left _

theorem not_endsVerbose_of_literal {s : Substitution} (h : s.kind = .literal) :
    ¬Regex.EndsVerbose s.source := by
  rintro ⟨e, he, hverbose⟩
  obtain rfl := Option.some.inj ((readState?_source h).symm.trans he)
  cases hverbose

/-- The valid items of a list can be read as one expression if and only if no two of them name a
group alike. Only expressions that end in verbose mode can be bad in parentheses, where a comment at
their end takes the closing one; they must be good in lists of their own. -/
theorem isSome_readState?_joinedSource {items : List Substitution}
    (hsingle : ∀ s ∈ items, s.kind = .expression → Regex.EndsVerbose s.source →
      (prepare [s]).program?.isSome) :
    (Regex.readState? (joinedSource (number 1 items))).isSome ↔ NamesApart items := by
  rw [joinedSource_number, Regex.isSome_readState?_alternation, List.map_map]
  · rfl
  · intro text htext
    obtain ⟨s, hs, rfl⟩ := List.mem_map.1 htext
    exact isSome_readState? (List.mem_filter.1 hs).2
  · intro text htext hverbose
    obtain ⟨s, hs, rfl⟩ := List.mem_map.1 htext
    obtain ⟨hmem, hread⟩ := List.mem_filter.1 hs
    cases hkind : s.kind with
    | literal => exact absurd hverbose (not_endsVerbose_of_literal hkind)
    | expression => exact isSome_readState?_of_program? hread (hsingle s hmem hkind hverbose)

/-- A list can be used, in any order, if and only if no two of its valid items name a group alike.
If two of them do, the list changes no text at all. -/
theorem usable_iff_namesApart {items order : List Substitution} (horder : items.Perm order)
    (hsingle : ∀ s ∈ items, s.kind = .expression → Regex.EndsVerbose s.source →
      (prepare [s]).program?.isSome)
    (hfits : Fits (joinedSource (number 1 order))) :
    ((prepare order).program?.isSome ↔ NamesApart items) ∧
      (¬NamesApart items → ∀ text, (Substitutions.ofList order).apply text = text) := by
  have hread := isSome_readState?_joinedSource fun s hs => hsingle s (horder.mem_iff.2 hs)
  have hprogram : (prepare order).program?.isSome ↔ NamesApart items := by
    rw [isSome_program?, NamesApart.perm horder, ← hread]
    exact ⟨isSome_readState?, hfits⟩
  refine ⟨hprogram, fun hshared text => ?_⟩
  have hnone : (prepare order).program? = none :=
    Option.not_isSome_iff_eq_none.1 fun hsome => hshared (hprogram.1 hsome)
  exact Substitutions.apply_of_program?_eq_none hnone text

/-- Numbers before a percent sign, in a named group. -/
def percent : Substitution :=
  { pattern := "(?P<n>\\d+)%", replacement := "$1 percent", kind := .expression }

/-- Numbers before a unit, in a group with the same name. -/
def kilograms : Substitution :=
  { pattern := "(?P<n>\\d+) kg", replacement := "$1 kilograms", kind := .expression }

/-- Numbers before a unit, in a group with another name; verbose mode is on at the end. -/
def pounds : Substitution :=
  { pattern := "(?x)(?P<m>\\d+)lb", replacement := "$1 pounds", kind := .expression }

theorem usable_iff_namesApart_samples :
    NamesApart [percent, pounds, literal " u " " you "] ∧
      ∀ text, (Substitutions.ofList [kilograms, percent]).apply text = text := by
  have hgood : ∀ s ∈ [percent, kilograms, pounds, literal " u " " you "],
      (prepare [s]).program?.isSome := by decide +kernel
  constructor
  · refine (@usable_iff_namesApart [percent, pounds, literal " u " " you "] _ (.refl _)
      (fun s hs _ _ => hgood s ?_) fun _ => ?_).1.1 ?_
    · simp at hs ⊢
      tauto
    · decide +kernel
    · decide +kernel
  · have hboth := @usable_iff_namesApart [percent, kilograms] [kilograms, percent] (.swap _ _ _)
      (fun s hs _ _ => hgood s (by simp at hs ⊢; tauto)) (by unfold Fits; decide +kernel)
    refine hboth.2 fun hapart => ?_
    have hunusable : (prepare [kilograms, percent]).program?.isSome = false := by decide +kernel
    rw [hboth.1.2 hapart] at hunusable
    cases hunusable

/-- Verbose mode matters: a comment at the end of a valid expression makes it useless even alone. -/
example :
    let commented : Substitution :=
      { pattern := "(?x)kg # unit", replacement := "kilograms", kind := .expression }
    (Regex.read? commented.source).isSome ∧ (prepare [commented]).program? = none := by
  decide +kernel

/-- Each of two expressions is accepted, is valid and can be used alone, but a group has the same
name in both, so that together they change nothing. -/
theorem percent_kilograms_unusable :
    (expression? percent.pattern percent.replacement = some percent ∧
      expression? kilograms.pattern kilograms.replacement = some kilograms) ∧
    ((Regex.read? percent.source).isSome ∧ (Regex.read? kilograms.source).isSome) ∧
    ((prepare [percent]).program?.isSome ∧ (prepare [kilograms]).program?.isSome) ∧
    (prepare [percent, kilograms]).program? = none ∧
    (Substitutions.ofList [percent, kilograms]).apply "5% of 3 kg" = "5% of 3 kg" := by
  have hnone : (prepare [percent, kilograms]).program? = none := by decide +kernel
  exact ⟨by decide +kernel, by decide +kernel, by decide +kernel, hnone,
    Substitutions.apply_of_program?_eq_none hnone _⟩

end Substitution

end Parley
