import Parley.Proofs.Numbering
import Parley.Proofs.Spaces

/-!
# Word boundaries of substitutions

A space at an end of the pattern of a substitution is glued to the expression, where it belongs to
the whole expression only if that is one sequence: it binds stronger than a bar. So it asks for a
word boundary in all literals, and in the expressions without a bar outside of groups.

Main result: `Program.boundaries_of_mem_allMatches`, the boundaries of what is replaced.
-/

namespace Parley

open Text

namespace Substitution

/-- What is behind the space at the start of an expression with boundaries is not a repetition of
it, if the substitution was made from a valid expression. -/
theorem isRepetition_of_mem_head? {s : Substitution}
    (hmade : s.kind = .expression → expression? s.pattern s.replacement = some s) {stop : List Char}
    (hstop : ∀ c ∈ stop.head?, Regex.isRepetition c = false) :
    ∀ c ∈ (s.body ++ stop).head?, Regex.isRepetition c = false := by
  -- spaces become repeated ones, which begin with a space and not with the repetition
  have hhead : ∀ inner : List Char, (∀ c ∈ inner.head?, Regex.isRepetition c = false) →
      ∀ c ∈ ((inner.flatMap fun c => if c == ' ' then [' ', '+'] else [c]) ++ stop).head?,
        Regex.isRepetition c = false := by
    intro inner hinner
    cases inner with
    | nil => exact hstop
    | cons d rest =>
      intro c hc
      refine hinner c ?_
      rw [List.flatMap_cons] at hc
      by_cases hd : d = ' '
      · subst hd
        exact hc
      · rw [if_neg (by simpa using hd)] at hc
        exact hc
  refine hhead _ ?_
  cases hkind : s.kind with
  | expression =>
    dsimp only
    intro c hc
    -- an expression that can be read alone does not begin with a repetition
    have hread : (Regex.read? (strip s.pattern.toList)).isSome := by
      have hsome := hmade hkind
      rw [expression?] at hsome
      obtain ⟨r, hr, -⟩ := Option.map_eq_some_iff.1 hsome
      rw [hr]
      rfl
    obtain ⟨e, he⟩ := Option.isSome_iff_exists.1 (isSome_readState? hread)
    obtain ⟨rest, hrest⟩ : ∃ rest, strip s.pattern.toList = c :: rest :=
      List.head?_eq_some_iff.1 hc
    exact Regex.isRepetition_of_readState? (hrest ▸ he)
  | literal =>
    dsimp only
    intro c hc
    cases hinner : strip s.pattern.toList with
    | nil =>
      rw [hinner] at hc
      cases hc
    | cons d rest =>
      -- a literal that would is escaped
      rw [hinner, Regex.escape] at hc
      split at hc
      · obtain rfl := Option.some.inj hc
        decide
      · next hmeta =>
        obtain rfl := Option.some.inj hc
        rw [Bool.eq_false_iff]
        intro hrepetition
        rw [Regex.isRepetition, List.contains_iff_mem] at hrepetition
        simp only [List.mem_cons, List.not_mem_nil, or_false] at hrepetition
        rcases hrepetition with rfl | rfl | rfl | rfl <;> exact hmeta rfl

theorem source_of_head? {s : Substitution} (h : s.pattern.toList.head? = some ' ') :
    s.source = ' ' :: (s.body ++ if s.pattern.toList.getLast? == some ' ' then [' '] else []) := by
  rw [source, h]
  rfl

theorem getLast?_source {s : Substitution} (h : s.pattern.toList.getLast? = some ' ') :
    s.source.getLast? = some ' ' := by
  rw [source, h]
  exact List.getLast?_concat

end Substitution

namespace Program

open Substitution

theorem item_mem_of_through? {items : List Substitution} {program : Program}
    (halternatives : program.alternatives = number 1 items) {m : Regex.Match} {a : Alternative}
    (ha : program.through? m = some a) : a.item ∈ items := by
  have hmem : a.item ∈ (number 1 items).map Alternative.item :=
    List.mem_map_of_mem (halternatives ▸ List.mem_of_find?_eq_some ha)
  rw [item_number] at hmem
  exact (List.mem_filter.1 hmem).1

section Boundary

variable {s : Substitution} {e : Regex.State} {g : Nat} {body : Regex}

/-- A way through the branch of an item takes the boundary space at the start first. -/
theorem exists_took_space_cons
    (hmade : s.kind = .expression → expression? s.pattern s.replacement = some s)
    (hbody : Regex.IsBranch s.source e g body) (hbars : e.alternatives = [])
    (hhead : s.pattern.toList.head? = some ' ') {n : Nat} {p : Regex.Place} {notes : Regex.Notes}
    {o : Regex.Outcome} (hway : Regex.Way n [.run body] p notes o) :
    ∃ u, p.Took (' ' :: u) o.place := by
  have hstop : ∀ c ∈ (if s.pattern.toList.getLast? == some ' ' then [' '] else []).head?,
      Regex.isRepetition c = false := by
    intro c hc
    split at hc
    · obtain rfl := Option.some.inj hc
      decide
    · cases hc
  obtain ⟨qs, rfl⟩ :=
    hbody.start (source_of_head? hhead) (isRepetition_of_mem_head? hmade hstop) hbars
  obtain ⟨k, l, first, hspace, hrest⟩ := Regex.exists_way_of_catAll_cons hway
  obtain ⟨u, hu⟩ := hrest.exists_took
  exact ⟨u, hspace.took_space.trans hu⟩

/-- It takes the boundary space at the end last, if blanks mean something there. -/
theorem exists_took_append_space (he : Regex.readState? s.source = some e)
    (hbody : Regex.IsBranch s.source e g body) (hbars : e.alternatives = [])
    (hverbose : s.kind = .expression → ¬Regex.EndsVerbose s.source)
    (hlast : s.pattern.toList.getLast? = some ' ') {n : Nat} {p : Regex.Place}
    {notes : Regex.Notes} {o : Regex.Outcome} (hway : Regex.Way n [.run body] p notes o) :
    ∃ u, p.Took (u ++ [' ']) o.place := by
  have hplain : e.flags.verbose = false := by
    rw [Bool.eq_false_iff]
    intro htrue
    cases hkind : s.kind with
    | literal => exact not_endsVerbose_of_literal hkind ⟨e, he, htrue⟩
    | expression => exact hverbose hkind ⟨e, he, htrue⟩
  obtain ⟨qs, f, rfl⟩ := hbody.stop (getLast?_source hlast) hplain hbars
  obtain ⟨k, l, last, hrest, hspace⟩ := Regex.exists_way_of_catAll_append hway
  obtain ⟨u, hu⟩ := hrest.exists_took
  exact ⟨u, hu.trans hspace.took_space⟩

end Boundary

/-- What is replaced through a literal, or through an expression without a bar outside of groups,
begins with the boundary space that the pattern begins with, and ends with the one that it ends
with, unless the expression ends in verbose mode, where blanks mean nothing. No word of the text
goes over such a boundary. -/
theorem boundaries_of_mem_allMatches {items : List Substitution} {program : Program}
    (hmade : ∀ s ∈ items, s.kind = .expression → expression? s.pattern s.replacement = some s)
    (hsingle : ∀ s ∈ items, s.kind = .expression → Regex.EndsVerbose s.source →
      (prepare [s]).program?.isSome)
    (hcounts : ∀ s ∈ items, s.kind = .expression → s.CountsGroups)
    (hprogram : (prepare items).program? = some program) (text : List Char) {m : Regex.Match}
    (hm : m ∈ program.regex.allMatches (Substitutions.workingText (breakWords text)))
    {a : Alternative} (ha : program.through? m = some a)
    (hsequence : a.item.kind = .expression → a.item.IsSequence) :
    ∃ front behind, Substitutions.workingText (breakWords text) = front ++ (m.text ++ behind) ∧
      front.length = m.start.index ∧
      (a.item.pattern.toList.head? = some ' ' → m.text.head? = some ' ' ∧
        breakWords text = breakWords front ++ breakWords (m.text ++ behind)) ∧
      (a.item.pattern.toList.getLast? = some ' ' →
        (a.item.kind = .expression → ¬Regex.EndsVerbose a.item.source) →
        m.text.getLast? = some ' ' ∧
          breakWords text = breakWords (front ++ m.text) ++ breakWords behind) := by
  have hne : program.alternatives ≠ [] := by
    intro hnil
    rw [through?, hnil] at ha
    cases ha
  obtain ⟨halternatives, rs, hrs, hregex, hbranches⟩ :=
    exists_branches_of_prepare hsingle hcounts hprogram hne
  have hitem := item_mem_of_through? halternatives ha
  obtain ⟨front, hfront, hmatch⟩ := Regex.exists_took_of_mem_allMatches hm
  have htook := Regex.Match.took_text hmatch
  -- the way of the match through the branch of its item
  obtain ⟨e, body, n, notes, mid, he, hbody, hway, hstop⟩ :=
    exists_way_of_through? (halternatives ▸ pairwise_number 1 items) hrs hregex hbranches hmatch ha
  -- without a bar at the top the spaces at the ends are parts of one sequence
  obtain ⟨e', he', hbars⟩ : a.item.IsSequence := by
    cases hkind : a.item.kind with
    | literal => exact isSequence_of_literal hkind
    | expression => exact hsequence hkind
  obtain rfl := Option.some.inj (he.symm.trans he')
  -- the match is somewhere in the working text, whose words are those of the text
  have hwork : Substitutions.workingText (breakWords text) =
      front ++ (m.text ++ m.stop.rest) := by
    rw [← htook.1]
    exact hfront.1
  have hwords := Substitutions.breakWords_workingText_breakWords text
  rw [hwork] at hwords
  refine ⟨front, m.stop.rest, hwork, ?_, fun hhead => ?_, fun hlast hverbose => ?_⟩
  · have hindex := hfront.2
    rw [Regex.Place.ofText, Nat.zero_add] at hindex
    exact hindex.symm
  · obtain ⟨u, hu⟩ := exists_took_space_cons (hmade a.item hitem) hbody hbars hhead hway
    have htext : m.text = ' ' :: u := htook.unique (hstop ▸ hu)
    rw [htext] at hwords ⊢
    refine ⟨rfl, ?_⟩
    rw [← hwords, List.cons_append, breakWords_append_cons isBlank_space, breakWords_cons_space]
  · obtain ⟨u, hu⟩ := exists_took_append_space he hbody hbars hverbose hlast hway
    have htext : m.text = u ++ [' '] := htook.unique (hstop ▸ hu)
    rw [htext] at hwords ⊢
    refine ⟨List.getLast?_concat, ?_⟩
    have hsplit : front ++ (u ++ [' '] ++ m.stop.rest) = front ++ u ++ ' ' :: m.stop.rest := by
      simp
    have hfrontWords : breakWords (front ++ (u ++ [' '])) = breakWords (front ++ u) := by
      rw [← List.append_assoc, breakWords_append_cons isBlank_space]
      exact List.append_nil _
    rw [← hwords, hsplit, breakWords_append_cons isBlank_space, hfrontWords]

/-- Verbose mode matters: the space at the end of a pattern is skipped then. -/
example :
    (Substitutions.ofList
      [{ pattern := " (?x)u ", replacement := " you ", kind := .expression }]).apply "a unit" =
      "a you nit" := by
  decide +kernel

/-- So does the counting: the group that takes part in no match has the second item, which has no
boundaries, taken for the third one. -/
example :
    (Substitutions.ofList
      [{ pattern := "(a)\x7b0\x7dx", replacement := "y", kind := .expression },
        literal "c" "k", literal " d " " D "]).apply "acid" = "a D id" := by
  decide +kernel

/-- A word that is also written with a digit. -/
def great : Substitution :=
  { pattern := " gr(e|8)t ", replacement := " great ", kind := .expression }

theorem boundaries_of_mem_allMatches_great :
    ∃ program m a front behind, (prepare [literal " u " " you ", great]).program? = some program ∧
      m ∈ program.regex.allMatches (Substitutions.workingText (breakWords "u r gr8t".toList)) ∧
      program.through? m = some a ∧ a.item = great ∧
      breakWords "u r gr8t".toList = breakWords front ++ breakWords (m.text ++ behind) ∧
      breakWords "u r gr8t".toList = breakWords (front ++ m.text) ++ breakWords behind := by
  have hgood : ∀ s ∈ [literal " u " " you ", great],
      (s.kind = .expression → expression? s.pattern s.replacement = some s) ∧
        (prepare [s]).program?.isSome ∧ s.CountsGroups := by decide +kernel
  have hfound : ((prepare [literal " u " " you ", great]).program?.bind fun p =>
      ((p.regex.allMatches (Substitutions.workingText (breakWords "u r gr8t".toList)))[1]?).bind
        fun m => (p.through? m).map fun a => a.item) = some great := by decide +kernel
  obtain ⟨program, hprogram, hfound⟩ := Option.bind_eq_some_iff.1 hfound
  obtain ⟨m, hm, hfound⟩ := Option.bind_eq_some_iff.1 hfound
  obtain ⟨a, ha, hitem⟩ := Option.map_eq_some_iff.1 hfound
  have hm := List.mem_of_getElem? hm
  have hverbose : ¬Regex.EndsVerbose great.source := by decide +kernel
  obtain ⟨front, behind, -, -, hstart, hstop⟩ := boundaries_of_mem_allMatches
    (fun s hs => (hgood s hs).1) (fun s hs _ _ => (hgood s hs).2.1) (fun s hs _ => (hgood s hs).2.2)
    hprogram _ hm ha (fun _ => by rw [hitem]; decide +kernel)
  refine ⟨program, m, a, front, behind, hprogram, hm, ha, hitem, (hstart ?_).2, (hstop ?_ ?_).2⟩
  · rw [hitem]; rfl
  · rw [hitem]; rfl
  · exact fun _ => hitem ▸ hverbose

/-- The end of a word or the start of one, whichever the bar allows. -/
def you : Substitution :=
  { pattern := " u|ya ", replacement := " you ", kind := .expression }

/-- A bar outside of groups takes the space at the start from what is behind it: an occurrence
inside of a word is replaced, too. -/
theorem you_replaces_inside_word :
    expression? you.pattern you.replacement = some you ∧
      you.pattern.toList.head? = some ' ' ∧
      (Substitutions.ofList [you]).apply "papaya under" = "papa you you nder" ∧
      ∃ program m a front behind, (prepare [you]).program? = some program ∧
        m ∈ program.regex.allMatches
          (Substitutions.workingText (breakWords "papaya under".toList)) ∧
        program.through? m = some a ∧ a.item = you ∧
        Substitutions.workingText (breakWords "papaya under".toList) =
          front ++ (m.text ++ behind) ∧
        front.length = m.start.index ∧
        breakWords "papaya under".toList ≠ breakWords front ++ breakWords (m.text ++ behind) := by
  have hfound : ((prepare [you]).program?.bind fun p =>
      ((p.regex.allMatches
          (Substitutions.workingText (breakWords "papaya under".toList)))[0]?).bind
        fun m => (p.through? m).map fun a => (a.item, m.text, m.start.index)) =
          some (you, "ya ".toList, 5) := by decide +kernel
  obtain ⟨program, hprogram, hfound⟩ := Option.bind_eq_some_iff.1 hfound
  obtain ⟨m, hm, hfound⟩ := Option.bind_eq_some_iff.1 hfound
  obtain ⟨a, ha, hmatch⟩ := Option.map_eq_some_iff.1 hfound
  obtain ⟨hitem, hrest⟩ := Prod.mk.inj hmatch
  obtain ⟨htext, hindex⟩ := Prod.mk.inj hrest
  refine ⟨by decide +kernel, by decide +kernel, by decide +kernel, program, m, a, " papa".toList,
    " under ".toList, hprogram, List.mem_of_getElem? hm, ha, hitem, ?_, ?_, ?_⟩
  · rw [htext]
    decide +kernel
  · rw [hindex]
    decide +kernel
  · rw [htext]
    decide +kernel

end Program

end Parley