import Mathlib.Data.List.TakeWhile
import Parley.Proofs.OwnMatches

/-!
# References to groups

In the replacement of an expression, a dollar sign and the digits behind it refer to a group of the
expression. In a list its groups have other numbers, and the number that is written is added to the
number of the group around the item. What comes of it is what the group has taken when the item is
matched by itself.

Main results:

* `expandReferences_eq` — how a replacement is read;
* `Program.replacement_refers_to_own` — references stay inside of their own item.
-/

namespace Parley

open Text

/-! ## Reading replacements -/

/-- A part of the replacement of an expression. -/
inductive ReplacementPart where
  /-- A character that stands for itself. -/
  | char (c : Char)
  /-- The digits behind a dollar sign. -/
  | reference (digits : List Char)
  deriving DecidableEq, Repr

/-- The text for a part, where `refer` gives the texts for references. -/
def ReplacementPart.expand (refer : List Char → List Char) : ReplacementPart → List Char
  | .char c => [c]
  | .reference digits => refer digits

/-- Whether a text does not go on with a digit. -/
def NoDigitAhead (text : List Char) : Prop := ∀ d ∈ text.head?, isDecimal d = false

/-- How a replacement is read: a dollar sign is a reference with all the digits behind it, if there
are digits, and every other character stands for itself. -/
inductive Reads : List Char → List ReplacementPart → Prop where
  | nil : Reads [] []
  | char {c : Char} {text : List Char} {parts : List ReplacementPart}
    (hplain : c = '$' → NoDigitAhead text) (hrest : Reads text parts) :
    Reads (c :: text) (.char c :: parts)
  | reference {digits text : List Char} {parts : List ReplacementPart} (hne : digits ≠ [])
    (hdigits : ∀ d ∈ digits, isDecimal d = true) (hstop : NoDigitAhead text)
    (hrest : Reads text parts) :
    Reads ('$' :: (digits ++ text)) (.reference digits :: parts)

theorem takeWhile_isDecimal_append {digits text : List Char}
    (hdigits : ∀ d ∈ digits, isDecimal d = true) (hstop : NoDigitAhead text) :
    (digits ++ text).takeWhile isDecimal = digits := by
  rw [List.takeWhile_append_of_pos hdigits]
  cases text with
  | nil => rw [List.takeWhile_nil, List.append_nil]
  | cons c text =>
    rw [List.takeWhile_cons_of_neg (by rw [hstop c rfl]; decide), List.append_nil]

theorem not_noDigitAhead_append {digits : List Char} (hne : digits ≠ [])
    (hdigits : ∀ d ∈ digits, isDecimal d = true) (text : List Char) :
    ¬NoDigitAhead (digits ++ text) := by
  obtain ⟨d, digits, rfl⟩ := List.exists_cons_of_ne_nil hne
  intro hstop
  have hnot := hstop d rfl
  rw [hdigits d List.mem_cons_self] at hnot
  cases hnot

/-- A replacement is read in one way only. -/
theorem Reads.unique {text : List Char} {parts parts' : List ReplacementPart}
    (h : Reads text parts) (h' : Reads text parts') : parts = parts' := by
  induction h generalizing parts' with
  | nil =>
    cases h'
    rfl
  | @char c text parts hplain _ ih =>
    cases h' with
    | char _ hrest => rw [ih hrest]
    | reference hne hdigits => exact absurd (hplain rfl) (not_noDigitAhead_append hne hdigits _)
  | @reference digits text parts hne hdigits hstop _ ih =>
    generalize hwhole : '$' :: (digits ++ text) = whole at h'
    cases h' with
    | nil => cases hwhole
    | char hplain =>
      obtain ⟨rfl, rfl⟩ := List.cons.inj hwhole
      exact absurd (hplain rfl) (not_noDigitAhead_append hne hdigits _)
    | @reference digits' text' _ _ hdigits' hstop' hrest' =>
      have hsplit := (List.cons.inj hwhole).2
      -- both are all the digits that follow the dollar sign
      have hsame : digits = digits' := by
        rw [← takeWhile_isDecimal_append hdigits hstop, hsplit,
          takeWhile_isDecimal_append hdigits' hstop']
      subst hsame
      obtain rfl := List.append_cancel_left hsplit
      rw [ih hrest']

/-- Every text can be read. -/
theorem exists_reads : ∀ text : List Char, ∃ parts, Reads text parts
  | [] => ⟨[], .nil⟩
  | c :: text => by
    have hstop : NoDigitAhead (text.dropWhile isDecimal) := by
      intro d hd
      have hnot := List.head?_dropWhile_not isDecimal text
      rw [Option.mem_def.1 hd] at hnot
      simpa using hnot
    have hdigits : ∀ d ∈ text.takeWhile isDecimal, isDecimal d = true :=
      fun d hd => List.mem_takeWhile_imp hd
    by_cases hreference : c = '$' ∧ text.takeWhile isDecimal ≠ []
    -- all digits behind the dollar sign belong to the reference
    · obtain ⟨rfl, hne⟩ := hreference
      have hshort : (text.dropWhile isDecimal).length < text.length + 1 :=
        Nat.lt_succ_of_le (List.length_dropWhile_le isDecimal text)
      obtain ⟨parts, hparts⟩ := exists_reads (text.dropWhile isDecimal)
      have hread := Reads.reference hne hdigits hstop hparts
      rw [List.takeWhile_append_dropWhile] at hread
      exact ⟨_, hread⟩
    · -- the character stands for itself, since a dollar sign has no digits behind it
      obtain ⟨parts, hparts⟩ := exists_reads text
      refine ⟨_, .char (fun hc d hd => ?_) hparts⟩
      have hnone : text.takeWhile isDecimal = [] := by
        by_contra hne
        exact hreference ⟨hc, hne⟩
      rw [← List.takeWhile_append_dropWhile (p := isDecimal) (l := text), hnone] at hd
      exact hstop d hd
termination_by text => text.length

section Expanding

variable (group : Nat → List Char)

/-- The digits behind a dollar sign are collected. -/
theorem expandReferences_append {digits : List Char} (hdigits : ∀ d ∈ digits, isDecimal d = true)
    (pending text : List Char) :
    expandReferences group (some pending) (digits ++ text) =
      expandReferences group (some (digits.reverse ++ pending)) text := by
  induction digits generalizing pending with
  | nil => rfl
  | cons d digits ih =>
    obtain ⟨hd, hdigits⟩ := List.forall_mem_cons.1 hdigits
    rw [List.cons_append, expandReferences, if_pos hd, ih hdigits, List.reverse_cons,
      List.append_assoc]
    rfl

/-- Where the digits end, the text for them is put. -/
theorem expandReferences_pending {text : List Char} (hstop : NoDigitAhead text)
    (pending : List Char) :
    expandReferences group (some pending) text =
      expandReferences.flush group (some pending) ++ expandReferences group none text := by
  cases text with
  | nil => exact (List.append_nil _).symm
  | cons c text =>
    have hc : ¬isDecimal c = true := by
      rw [hstop c rfl]
      decide
    rw [expandReferences, expandReferences, if_neg hc]
    split <;> rfl

/-- A replacement is expanded part by part. -/
theorem expandReferences_eq {text : List Char} {parts : List ReplacementPart}
    (h : Reads text parts) :
    expandReferences group none text =
      parts.flatMap (ReplacementPart.expand fun digits => group (referenceNumber digits)) := by
  induction h with
  | nil => rfl
  | @char c text parts hplain _ ih =>
    rw [List.flatMap_cons, ← ih, expandReferences]
    by_cases hc : c = '$'
    · rw [if_pos (by simpa using hc), expandReferences_pending group (hplain hc), hc]
      rfl
    · rw [if_neg (by simpa using hc)]
      rfl
  | @reference digits text parts hne hdigits hstop _ ih =>
    rw [List.flatMap_cons, ← ih, expandReferences, if_pos (by decide),
      expandReferences_append group hdigits, List.append_nil,
      expandReferences_pending group hstop]
    obtain ⟨d, ds, hreverse⟩ := List.exists_cons_of_ne_nil (mt List.reverse_eq_nil_iff.1 hne)
    rw [hreverse, expandReferences.flush, ← hreverse, List.reverse_reverse]
    rfl

end Expanding

/-! ## Groups of an item -/

/-- What references come to in the replacement of an item that has matched: `own` is the match of
the item by itself, where the group around it is the first one. -/
structure Alternative.RefersTo (a : Alternative) (own : Regex.Match)
    (refer : List Char → List Char) : Prop where
  /-- A number that can be added up refers to the group of the item with this number, and to nothing
  if the item has no such group or the group took no part. -/
  within : ∀ digits : List Char, digits.all Char.isDigit →
    a.group + Regex.numberOf 10 digits < UInt64.size →
    refer digits = (own.group? (1 + Regex.numberOf 10 digits)).getD []
  /-- What is not read as a number refers to the whole match. -/
  unread : ∀ digits : List Char,
    ¬(digits.all Char.isDigit ∧ Regex.numberOf 10 digits < UInt64.size) →
    a.group < UInt64.size → refer digits = own.text
  /-- No number refers to anything but a group of the item. -/
  confined : ∀ digits : List Char, refer digits = [] ∨ ∃ n, own.group? n = some (refer digits)

theorem referenceNumber_of_lt {digits : List Char} (hdigits : digits.all Char.isDigit)
    (hlt : Regex.numberOf 10 digits < UInt64.size) :
    referenceNumber digits = Regex.numberOf 10 digits :=
  if_pos (by rw [hdigits, decide_eq_true hlt]; rfl)

theorem referenceNumber_of_not {digits : List Char}
    (h : ¬(digits.all Char.isDigit ∧ Regex.numberOf 10 digits < UInt64.size)) :
    referenceNumber digits = 0 :=
  if_neg (by simpa using h)

namespace Alternative

theorem slot_of_lt {a : Alternative} {n : Nat} (h : a.group + n < UInt64.size) :
    a.slot n = a.group + n :=
  Nat.mod_eq_of_lt h

variable {a : Alternative} {own : Regex.Match}

/-- A number of the whole expression that is added up is that of the own group. -/
theorem capture?_raise (hpos : 0 < a.group) {n : Nat} (h : a.group + n < UInt64.size) :
    (own.raise (a.group - 1)).capture? (a.slot n) = own.group? (1 + n) := by
  rw [slot_of_lt h, Regex.Match.capture?, if_neg (by omega),
    ← Regex.Match.group?_raise (a.group - 1) (1 + n) own]
  congr 1
  omega

/-- Every number of the whole expression is that of an own group, or its group took no part. -/
theorem getD_capture?_raise (hwhole : own.group? 1 = some own.text) (g : Nat) :
    ((own.raise (a.group - 1)).capture? g).getD [] = [] ∨
      ∃ n, own.group? n = some (((own.raise (a.group - 1)).capture? g).getD []) := by
  rw [Regex.Match.capture?]
  split
  · exact Or.inr ⟨1, hwhole⟩
  · rcases Nat.lt_or_ge g (a.group - 1) with hlt | hge
    · -- the groups of the items in front, which took no part
      exact Or.inl (by rw [Regex.Match.group?_raise_of_lt hlt own]; rfl)
    · obtain ⟨n, rfl⟩ := Nat.exists_eq_add_of_le' hge
      rw [Regex.Match.group?_raise]
      cases hn : own.group? n with
      | none => exact Or.inl rfl
      | some u => exact Or.inr ⟨n, hn⟩

/-- The groups of an item are found in the match of a list. -/
theorem refersTo_raise (hpos : 0 < a.group) (hwhole : own.group? 1 = some own.text) :
    a.RefersTo own fun digits =>
      ((own.raise (a.group - 1)).capture? (a.slot (referenceNumber digits))).getD [] where
  within digits hdigits hlt := by
    rw [referenceNumber_of_lt hdigits (by omega), capture?_raise hpos hlt]
  unread digits hnot hgroup := by
    rw [referenceNumber_of_not hnot, capture?_raise hpos hgroup, hwhole]
    rfl
  confined digits := getD_capture?_raise hwhole _

end Alternative

/-! ## Replacements -/

namespace Program

open Substitution

/-- A text for what a match has taken, with the spaces at the ends of it. -/
def keepSpaces (whole text : List Char) : List Char :=
  let text := if whole.head? == some ' ' && text.head? != some ' ' then ' ' :: text else text
  if whole.getLast? == some ' ' && text.getLast? != some ' ' then text ++ [' '] else text

/-- Spaces are put at the ends of a text where they are at the ends of the match but not there. -/
theorem exists_keepSpaces (whole text : List Char) :
    ∃ front behind, keepSpaces whole text = front ++ text ++ behind ∧
      (front = [] ∨ front = [' '] ∧ whole.head? = some ' ' ∧ text.head? ≠ some ' ') ∧
      (behind = [] ∨ behind = [' '] ∧ whole.getLast? = some ' ' ∧ text.getLast? ≠ some ' ') := by
  have hstart : ∃ front, (if whole.head? == some ' ' && text.head? != some ' ' then ' ' :: text
      else text) = front ++ text ∧
      (front = [] ∨ front = [' '] ∧ whole.head? = some ' ' ∧ text.head? ≠ some ' ') := by
    split
    · next h =>
      rw [Bool.and_eq_true, beq_iff_eq, bne_iff_ne] at h
      exact ⟨[' '], rfl, Or.inr ⟨rfl, h⟩⟩
    · exact ⟨[], rfl, Or.inl rfl⟩
  obtain ⟨front, hfront, hspace⟩ := hstart
  rw [keepSpaces, hfront]
  split
  · next h =>
    rw [Bool.and_eq_true, beq_iff_eq, bne_iff_ne] at h
    refine ⟨front, [' '], rfl, hspace, Or.inr ⟨rfl, h.1, fun htext => h.2 ?_⟩⟩
    rw [List.getLast?_append, htext]
    rfl
  · exact ⟨front, [], (List.append_nil _).symm, hspace, Or.inl rfl⟩

/-- What a match is replaced by that is replaced through an item. -/
theorem replacement_of_through? {program : Program} {m : Regex.Match} {a : Alternative}
    (ha : program.through? m = some a) :
    program.replacement m = keepSpaces ((m.group? a.group).getD []) (match a.item.kind with
      | .literal => a.item.replacement.toList
      | .expression => expandReferences (fun n => (m.capture? (a.slot n)).getD []) none
          a.item.replacement.toList) := by
  rw [through?] at ha
  rw [replacement, ha]
  rfl

/-- **References stay inside of their own item.** What an expression has matched in a list is what
it matches there by itself, and in its replacement every dollar sign with digits stands for what the
group of the expression with this number has taken in that match. All else is kept. -/
theorem replacement_refers_to_own {items : List Substitution} {program : Program}
    (hsingle : ∀ s ∈ items, s.kind = .expression → Regex.EndsVerbose s.source →
      (prepare [s]).program?.isSome)
    (hcounts : ∀ s ∈ items, s.kind = .expression → s.CountsGroups)
    (hprogram : (prepare items).program? = some program) (text : List Char) {m : Regex.Match}
    (hm : m ∈ program.regex.allMatches (Substitutions.workingText (breakWords text)))
    {a : Alternative} (ha : program.through? m = some a) (hkind : a.item.kind = .expression) :
    ∃ own m' parts refer front behind, (prepare [a.item]).program? = some own ∧
      Regex.matchAt own.regex m.start = some m' ∧ m'.stop = m.stop ∧
      m'.group? 1 = some m.text ∧ Reads a.item.replacement.toList parts ∧
      a.RefersTo m' refer ∧
      program.replacement m =
        front ++ parts.flatMap (ReplacementPart.expand refer) ++ behind ∧
      (front = [] ∨ front = [' '] ∧ m.text.head? = some ' ') ∧
      (behind = [] ∨ behind = [' '] ∧ m.text.getLast? = some ' ') := by
  have hne : program.alternatives ≠ [] := by
    intro hnil
    rw [through?, hnil] at ha
    cases ha
  obtain ⟨before, -, hmatch⟩ := Regex.exists_took_of_mem_allMatches hm
  -- the item that the match goes through is the one with an own match there
  obtain ⟨b, own, m', hb, -, hnumber, hown, -, hm', hraise, hwhole⟩ :=
    exists_own_of_matchAt hsingle hcounts hprogram hne hmatch
  obtain rfl := Option.some.inj (ha.symm.trans hb)
  have hpos : 0 < a.group := le_group_of_mem_number hnumber
  have htext : m.text = m'.text := hraise ▸ Regex.Match.text_raise _ m'
  have hgroup : m.group? a.group = some m.text := by
    rw [hraise, Alternative.group?_raise hpos, hwhole, Regex.Match.text_raise]
  -- the replacement is read in parts and then given its spaces at the ends
  obtain ⟨parts, hparts⟩ := exists_reads a.item.replacement.toList
  have hreplacement := replacement_of_through? ha
  simp only [hkind] at hreplacement
  rw [hgroup, Option.getD_some, expandReferences_eq _ hparts] at hreplacement
  obtain ⟨front, behind, hkeep, hfront, hbehind⟩ := exists_keepSpaces m.text
    (parts.flatMap (ReplacementPart.expand fun digits =>
      (m.capture? (a.slot (referenceNumber digits))).getD []))
  refine ⟨own, m', parts, _, front, behind, hown, hm', by rw [hraise]; rfl, ?_,
    hparts, Alternative.refersTo_raise hpos hwhole, ?_, ?_, ?_⟩
  · rw [hwhole, htext]
  · rw [hreplacement, hkeep, hraise]
  · exact hfront.imp_right fun h => ⟨h.1, h.2.1⟩
  · exact hbehind.imp_right fun h => ⟨h.1, h.2.1⟩

/-- Two numbers, with one reference more than there are groups. -/
def range : Substitution :=
  { pattern := "(\\d+)-(\\d+)", replacement := "from $1 to $2$3", kind := .expression }

theorem replacement_refers_to_own_range :
    ∃ program m a own m' parts refer, (prepare [percent, range]).program? = some program ∧
      m ∈ program.regex.allMatches (Substitutions.workingText (breakWords "5% of 3-4".toList)) ∧
      program.through? m = some a ∧ a.item = range ∧
      (prepare [range]).program? = some own ∧ Regex.matchAt own.regex m.start = some m' ∧
      Reads range.replacement.toList parts ∧ a.RefersTo m' refer ∧
      program.replacement m = parts.flatMap (ReplacementPart.expand refer) ∧
      program.replacement m = "from 3 to 4".toList := by
  have hgood : ∀ s ∈ [percent, range], (prepare [s]).program?.isSome ∧ s.CountsGroups := by
    decide +kernel
  have hfound : ((prepare [percent, range]).program?.bind fun p =>
      ((p.regex.allMatches (Substitutions.workingText (breakWords "5% of 3-4".toList)))[1]?).bind
        fun m => (p.through? m).map fun a => (a.item, m.text, p.replacement m)) =
          some (range, "3-4".toList, "from 3 to 4".toList) := by decide +kernel
  obtain ⟨program, hprogram, hfound⟩ := Option.bind_eq_some_iff.1 hfound
  obtain ⟨m, hm, hfound⟩ := Option.bind_eq_some_iff.1 hfound
  obtain ⟨a, ha, hfound⟩ := Option.map_eq_some_iff.1 hfound
  obtain ⟨hitem, hfound⟩ := Prod.mk.inj hfound
  obtain ⟨htext, hreplaced⟩ := Prod.mk.inj hfound
  have hm := List.mem_of_getElem? hm
  obtain ⟨own, m', parts, refer, front, behind, hown, hm', -, -, hparts, hrefer, hreplacement,
      hfront, hbehind⟩ := replacement_refers_to_own (fun s hs _ _ => (hgood s hs).1)
    (fun s hs _ => (hgood s hs).2) hprogram _ hm ha (by rw [hitem]; rfl)
  rw [hitem] at hown hparts
  -- the match begins and ends with a digit
  have hfront : front = [] := hfront.resolve_right fun h => by
    rw [htext] at h
    exact absurd h.2 (by decide)
  have hbehind : behind = [] := hbehind.resolve_right fun h => by
    rw [htext] at h
    exact absurd h.2 (by decide)
  rw [hfront, hbehind, List.nil_append, List.append_nil] at hreplacement
  exact ⟨program, m, a, own, m', parts, refer, hprogram, hm, ha, hitem, hown, hm', hparts, hrefer,
    hreplacement, hreplaced⟩

/-- A reference to a group that no expression has. -/
def beyond : Substitution :=
  { pattern := "(a)", replacement := "[$18446744073709551616]", kind := .expression }

/-- A number that is too large refers to the whole match. -/
theorem beyond_refers_to_whole_match :
    expression? beyond.pattern beyond.replacement = some beyond ∧
      (∃ digits, Reads beyond.replacement.toList [.char '[', .reference digits, .char ']'] ∧
        ∃ own m, (prepare [beyond]).program? = some own ∧
          m ∈ own.regex.allMatches (Substitutions.workingText (breakWords "a".toList)) ∧
          m.group? 1 = some m.text ∧ m.group? (1 + Regex.numberOf 10 digits) = none ∧
          own.replacement m = "[a]".toList) ∧
      (Substitutions.ofList [beyond]).apply "a" = "[a]" := by
  have hsplit : beyond.replacement.toList =
      '[' :: '$' :: ("18446744073709551616".toList ++ [']']) := by decide +kernel
  have hdigits : ∀ d ∈ "18446744073709551616".toList, isDecimal d = true :=
    List.all_eq_true.1 (by decide +kernel)
  have hstop : NoDigitAhead [']'] := by
    intro d hd
    obtain rfl := Option.some.inj hd
    decide +kernel
  have hread : Reads beyond.replacement.toList
      [.char '[', .reference "18446744073709551616".toList, .char ']'] := by
    rw [hsplit]
    exact .char (fun h => absurd h (by decide)) (.reference (by decide) hdigits hstop
      (.char (fun h => absurd h (by decide)) .nil))
  have hfound : ((prepare [beyond]).program?.bind fun p =>
      ((p.regex.allMatches (Substitutions.workingText (breakWords "a".toList)))[0]?).map
        fun m => (m.group? 1 == some m.text,
          m.group? (1 + Regex.numberOf 10 "18446744073709551616".toList), p.replacement m)) =
          some (true, none, "[a]".toList) := by decide +kernel
  obtain ⟨own, hown, hfound⟩ := Option.bind_eq_some_iff.1 hfound
  obtain ⟨m, hm, hfound⟩ := Option.map_eq_some_iff.1 hfound
  obtain ⟨hwhole, hfound⟩ := Prod.mk.inj hfound
  obtain ⟨hnone, hreplaced⟩ := Prod.mk.inj hfound
  exact ⟨by decide +kernel, ⟨_, hread, own, m, hown, List.mem_of_getElem? hm,
    beq_iff_eq.1 hwhole, hnone, hreplaced⟩, by decide +kernel⟩

end Program

end Parley
