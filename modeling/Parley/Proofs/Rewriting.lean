import Parley.Proofs.Numbering
import Parley.Proofs.WordRules

/-!
# Rewriting of words

A list of word rules rewrites the words of a text from left to right. The expression is matched
against a text in which every word has a space of its own at each end, and a match takes whole words
with their spaces; so after each match and after each word that stays, the rest is words with their
spaces again.

Main results:

* `Substitution.program?_eq_of_literal` — what a list of literals is prepared as;
* `Program.breakWords_replaceFrom` — what becomes of the words from a place on;
* `Substitutions.apply_eq_rewrite` — a list of word rules is a rewriting of words.
-/

namespace Parley

open Text

/-! ## Preparing literals -/

namespace Substitution

/-- Literals as one expression: an alternation of their parts. -/
def literalProgram (items : List Substitution) : Program where
  regex := Regex.altAll (Regex.branchesFrom 0 (items.map (parts Regex.caseless)))
  alternatives := number 1 items

section Literals

variable {items : List Substitution}

theorem isSome_read?_of_literal {s : Substitution} (h : s.kind = .literal) (hfits : Fits s.source) :
    (Regex.read? s.source).isSome :=
  hfits (by rw [readState?_source h]; rfl)

/-- The groups of literals are numbered one after the other. -/
theorem number_cons_of_literal {s : Substitution} (h : s.kind = .literal) (hfits : Fits s.source)
    (next : Nat) : number next (s :: items) = ⟨s, next⟩ :: number (next + 1) items := by
  obtain ⟨r, hr⟩ := Option.isSome_iff_exists.1 (isSome_read?_of_literal h hfits)
  obtain ⟨e, he, rfl⟩ := Regex.exists_readState?_of_read? hr
  have hgroups := countsGroups_of_literal h e he
  obtain rfl := Option.some.inj ((readState?_source h).symm.trans he)
  rw [number, hr]
  dsimp only
  rw [hgroups]
  rfl

theorem number_append_of_literal {front : List Substitution} {s : Substitution}
    (h : ∀ t ∈ front ++ s :: items, t.kind = .literal)
    (hfits : ∀ t ∈ front ++ s :: items, Fits t.source) (next : Nat) :
    number next (front ++ s :: items) =
      number next front ++ ⟨s, next + front.length⟩ :: number (next + front.length + 1) items := by
  induction front generalizing next with
  | nil => exact number_cons_of_literal (h s List.mem_cons_self) (hfits s List.mem_cons_self) next
  | cons t front ih =>
    rw [List.cons_append, List.forall_mem_cons] at h hfits
    obtain ⟨ht, h⟩ := h
    obtain ⟨htfits, hfits⟩ := hfits
    rw [List.cons_append, number_cons_of_literal ht htfits, number_cons_of_literal ht htfits,
      ih h hfits, List.length_cons,
      show next + 1 + front.length = next + (front.length + 1) by omega]
    rfl

/-- What a list of literals is prepared as, if it is not refused for its size. -/
theorem program?_eq_of_literal (hne : items ≠ []) (h : ∀ s ∈ items, s.kind = .literal)
    (hfits : ∀ s ∈ items, Fits s.source) (hall : Fits (joinedSource (number 1 items))) :
    (prepare items).program? = some (literalProgram items) := by
  have hvalid : valid items = items :=
    List.filter_eq_self.2 fun s hs => isSome_read?_of_literal (h s hs) (hfits s hs)
  have hplain : List.Forall₂ (Regex.Plain Regex.caseless) (items.map source)
      (items.map (parts Regex.caseless)) := by
    rw [List.forall₂_map_left_iff, List.forall₂_map_right_iff, List.forall₂_same]
    exact fun s hs => plain_source Regex.caseless (h s hs)
  -- reading finds these alternatives, and the size is not in the way
  obtain ⟨e, he, hgroup⟩ :=
    Regex.readState?_alternation_of_plain hplain (fun hnil => hne (List.map_eq_nil_iff.1 hnil))
  have hsource : Regex.readState? (joinedSource (number 1 items)) = some e := by
    rw [joinedSource_number, hvalid, he]
  obtain ⟨r, hr⟩ := Option.isSome_iff_exists.1 (hall (by rw [hsource]; rfl))
  obtain ⟨e', he', rfl⟩ := Regex.exists_readState?_of_read? hr
  obtain rfl := Option.some.inj (hsource.symm.trans he')
  rw [prepare, hr, hgroup]
  rfl

end Literals

end Substitution

/-! ## Matches of rules -/

namespace Program

open Substitution

/-- A match that has noted one group only has taken the text of that group. -/
theorem group?_of_notes {m : Regex.Match} {g : Nat}
    (h : m.notes = [(2 * g + 1, m.stop.index), (2 * g, m.start.index)]) :
    m.group? g = some m.text := by
  have hstart : m.notes.lookup (2 * g) = some m.start.index := by
    have hdiffer : (2 * g == 2 * g + 1) = false := by simp
    rw [h, List.lookup_cons, hdiffer, List.lookup_cons, beq_self_eq_true]
  have hstop : m.notes.lookup (2 * g + 1) = some m.stop.index := by
    rw [h, List.lookup_cons, beq_self_eq_true]
  rw [Regex.Match.group?, hstart, hstop]
  dsimp only
  rw [Nat.sub_self]
  rfl

/-- A match that has noted the group of an item only is replaced through that item. -/
theorem through?_of_notes {front behind : List Substitution} {s : Substitution}
    (h : ∀ t ∈ front ++ s :: behind, t.kind = .literal)
    (hfits : ∀ t ∈ front ++ s :: behind, Fits t.source) {m : Regex.Match} {i j : Nat}
    (hnotes : m.notes = [(2 * (front.length + 1) + 1, i), (2 * (front.length + 1), j)]) :
    (literalProgram (front ++ s :: behind)).through? m = some ⟨s, front.length + 1⟩ := by
  have htook : ∀ g, (m.group? g).isSome ↔ g = front.length + 1 := by
    intro g
    rw [group?_isSome_iff, hnotes]
    simp only [List.mem_cons, List.not_mem_nil, or_false, exists_eq_or_imp, exists_eq_left]
    omega
  have hnumber := number_append_of_literal h hfits 1
  have hpairs := pairwise_number 1 (front ++ s :: behind)
  rw [hnumber, List.pairwise_append, Nat.add_comm 1] at hpairs
  rw [Nat.add_comm 1] at hnumber
  refine List.find?_eq_some_iff_append.2 ⟨(htook _).2 rfl, _, _, hnumber, fun a ha => ?_⟩
  rw [Bool.not_eq_true', ← Bool.not_eq_true, htook]
  exact Nat.ne_of_lt (hpairs.2.2 a ha _ List.mem_cons_self)

section Rules

variable {items : List Substitution} {p : Regex.Place} {m : Regex.Match}

theorem isPart_of_mem_parts (hrules : ∀ s ∈ items, s.IsWordRule) :
    ∀ rs ∈ items.map (parts Regex.caseless), ∀ r ∈ rs, Regex.IsPart Regex.caseless r := by
  intro rs hrs
  obtain ⟨s, hs, rfl⟩ := List.mem_map.1 hrs
  exact (plain_source Regex.caseless (hrules s hs).kind).isPart

/-- A match starts at a space in front of a word. -/
theorem exists_head_of_matchAt (hne : items ≠ []) (hrules : ∀ s ∈ items, s.IsWordRule)
    (h : Regex.matchAt (literalProgram items).regex p = some m) :
    ∃ d rest, p.rest = ' ' :: d :: rest ∧ d ≠ ' ' := by
  obtain ⟨front, rs, behind, u, hsplit, hu, htook, -⟩ :=
    Regex.exists_first_of_matchAt_branches (isPart_of_mem_parts hrules)
      (fun hnil => hne (List.map_eq_nil_iff.1 hnil)) h
  obtain ⟨s, hs, rfl⟩ : ∃ s ∈ items, s.parts Regex.caseless = rs := by
    rw [← List.mem_map, hsplit]
    exact List.mem_append_right _ List.mem_cons_self
  obtain ⟨d, u, rfl, hd⟩ := (hrules s hs).exists_head hu
  exact ⟨d, _, htook.1, hd⟩

variable {ws : List (List Char)}

/-- Where words begin and a rule applies, there is a match. -/
theorem exists_matchAt_of_applies (hrules : ∀ s ∈ items, s.IsWordRule)
    (hp : p.rest = ws.flatMap spaced) {s : Substitution} (hs : s ∈ items) (h : s.Applies ws) :
    ∃ m, Regex.matchAt (literalProgram items).regex p = some m := by
  obtain ⟨us, rest, rfl, hus⟩ := applies_iff.1 h
  have htaken := (hrules s hs).takenByAll hus
  obtain ⟨d, u, hu, -⟩ := (hrules s hs).exists_head htaken
  rw [List.flatMap_append] at hp
  exact Regex.exists_matchAt_branches (isPart_of_mem_parts hrules) (List.mem_map_of_mem hs) htaken
    (hu ▸ List.cons_ne_nil _ _) hp

/-- A match where words begin takes the words of the first rule that applies there, and it is
replaced through that rule. -/
theorem exists_rule_of_matchAt (hne : items ≠ []) (hrules : ∀ s ∈ items, s.IsWordRule)
    (hfits : ∀ s ∈ items, Fits s.source) (hws : AreWords ws) (hp : p.rest = ws.flatMap spaced)
    (h : Regex.matchAt (literalProgram items).regex p = some m) :
    ∃ s g us rest, items.find? (fun s => s.Applies ws) = some s ∧
      (literalProgram items).through? m = some ⟨s, g⟩ ∧ m.group? g = some m.text ∧
      ws = us ++ rest ∧ us.length = s.patternWords.length ∧ m.text = us.flatMap spaced ∧
      m.stop.rest = rest.flatMap spaced := by
  obtain ⟨front, rs, behind, u, hsplit, hu, htook, hnotes, hfirst⟩ :=
    Regex.exists_first_of_matchAt_branches (isPart_of_mem_parts hrules)
      (fun hnil => hne (List.map_eq_nil_iff.1 hnil)) h
  obtain ⟨before, later, rfl, rfl, hlater⟩ := List.map_eq_append_iff.1 hsplit
  obtain ⟨s, after, rfl, rfl, rfl⟩ := List.map_eq_cons_iff.1 hlater
  obtain ⟨hstart, -⟩ := Regex.exists_way_of_matchAt h
  have hs : s ∈ before ++ s :: after := List.mem_append_right _ List.mem_cons_self
  have htext : m.text = u := (Regex.Match.took_text h).unique htook
  obtain ⟨us, rest, rfl, hsame, rfl, hrest⟩ :=
    (hrules s hs).exists_words hws hu (hp.symm.trans htook.1)
  -- the group that was noted is that of the rule, and all groups have different numbers
  rw [List.length_map, ← hstart] at hnotes
  refine ⟨s, before.length + 1, us, rest, ?_, through?_of_notes (fun t ht => (hrules t ht).kind)
    hfits hnotes, group?_of_notes hnotes, rfl, hsame.length_eq.symm, htext, hrest⟩
  refine List.find?_eq_some_iff_append.2 ⟨?_, before, after, rfl, fun t ht => ?_⟩
  · exact decide_eq_true (applies_iff.2 ⟨us, rest, rfl, hsame⟩)
  · -- a rule in front of it that applies would have taken its words
    rw [Bool.not_eq_true', decide_eq_false_iff_not]
    intro happlies
    obtain ⟨us', rest', hsplit', hsame'⟩ := applies_iff.1 happlies
    have ht' : t ∈ before ++ s :: after := List.mem_append_left _ ht
    have htaken := (hrules t ht').takenByAll hsame'
    obtain ⟨d, v, hv, -⟩ := (hrules t ht').exists_head htaken
    refine hfirst _ (List.mem_map_of_mem ht) _ (rest'.flatMap spaced) htaken ?_ ?_
    · exact hv ▸ List.cons_ne_nil _ _
    · rw [hp, hsplit', List.flatMap_append]

end Rules

/-! ## Replacements -/

/-- What a match of a literal with a space at each end is replaced by is the words of its
replacement, apart from the words behind. -/
theorem breakWords_replacement_append {program : Program} {m : Regex.Match} {s : Substitution}
    {g : Nat} {t : List Char} (hthrough : program.through? m = some ⟨s, g⟩)
    (hkind : s.kind = .literal) (hgroup : m.group? g = some t) (hfirst : t.head? = some ' ')
    (hlast : t.getLast? = some ' ') (v : List Char) :
    breakWords (program.replacement m ++ v) = breakWords s.replacement.toList ++ breakWords v := by
  have hfind : program.alternatives.find? (fun a => (m.group? a.group).isSome) = some ⟨s, g⟩ :=
    hthrough
  have hstart : ∀ text : List Char,
      breakWords (if text.head? != some ' ' then ' ' :: text else text) = breakWords text := by
    intro text
    split
    · exact breakWords_cons_space text
    · rfl
  -- a space at the end keeps the last word apart from what is behind
  have hstop : ∀ text : List Char,
      breakWords ((if text.getLast? != some ' ' then text ++ [' '] else text) ++ v) =
        breakWords text ++ breakWords v := by
    intro text
    split
    · rw [List.append_assoc]
      exact breakWords_append_cons isBlank_space text v
    · next h =>
      have hspace : text.getLast? = some ' ' := by simpa using h
      obtain ⟨front, rfl⟩ := List.getLast?_eq_some_iff.1 hspace
      rw [List.append_assoc, breakWords_append_cons isBlank_space]
      exact (breakWords_append_cons isBlank_space front v).trans (by simp [breakWords])
  rw [replacement, hfind]
  simp only [hkind, hgroup, Option.getD_some, hfirst, hlast, beq_self_eq_true, Bool.true_and]
  rw [hstop, hstart]

theorem head?_flatMap_spaced {us : List (List Char)} (h : us ≠ []) :
    (us.flatMap spaced).head? = some ' ' := by
  obtain ⟨w, us, rfl⟩ := List.exists_cons_of_ne_nil h
  rfl

theorem getLast?_flatMap_spaced {us : List (List Char)} (h : us ≠ []) :
    (us.flatMap spaced).getLast? = some ' ' := by
  obtain rfl | ⟨us, w, rfl⟩ := List.eq_nil_or_concat us
  · exact absurd rfl h
  · have hend : (us.concat w).flatMap spaced = us.flatMap spaced ++ ' ' :: w ++ [' '] := by
      simp [spaced]
    rw [hend]
    exact List.getLast?_concat

/-! ## Rewriting from a place on -/

section Rewriting

variable {items : List Substitution} {p : Regex.Place} {n : Nat} {fresh : Bool}

/-- Nothing is replaced in a word or at the space behind it. -/
theorem exists_replaceFrom_word (hne : items ≠ []) (hrules : ∀ s ∈ items, s.IsWordRule)
    (replacement : Regex.Match → List Char) {w v : List Char} (hw : ∀ c ∈ w, c ≠ ' ')
    (hv : ∀ c ∈ v.head?, c = ' ') (hp : p.rest = w ++ ' ' :: v) :
    ∃ q, q.rest = v ∧
      (literalProgram items).regex.replaceFrom replacement (n + w.length + 1) fresh p =
        w ++ ' ' :: (literalProgram items).regex.replaceFrom replacement n true q := by
  -- a match starts at a space in front of something else
  have hnone : ∀ {p : Regex.Place},
      (∀ d rest, p.rest = ' ' :: d :: rest → d = ' ') →
        Regex.matchAt (literalProgram items).regex p = none := by
    intro p h
    rw [Option.eq_none_iff_forall_ne_some]
    intro m hm
    obtain ⟨d, rest, hrest, hd⟩ := exists_head_of_matchAt hne hrules hm
    exact hd (h d rest hrest)
  induction w generalizing p fresh with
  | nil =>
    have hat := @hnone p fun d rest hrest => hv d (by
      rw [(List.cons.inj (hp.symm.trans hrest)).2]
      rfl)
    exact Regex.replaceFrom_of_none hat hp
  | cons c w ih =>
    obtain ⟨hc, hw⟩ := List.forall_mem_cons.1 hw
    have hat := @hnone p fun d rest hrest =>
      absurd (List.cons.inj (hp.symm.trans hrest)).1 hc
    obtain ⟨q, hq, heq⟩ := Regex.replaceFrom_of_none hat hp
    obtain ⟨q', hq', heq'⟩ := @ih q true hw hq
    refine ⟨q', hq', ?_⟩
    rw [List.length_cons, ← Nat.add_assoc, heq, heq']
    rfl

variable {ws : List (List Char)}

/-- The words that a match takes are rewritten by the first rule that applies to them. -/
theorem breakWords_replaceFrom_of_matchAt (hne : items ≠ []) (hrules : ∀ s ∈ items, s.IsWordRule)
    (hfits : ∀ s ∈ items, Fits s.source) (hws : AreWords ws) (hp : p.rest = ws.flatMap spaced)
    {m : Regex.Match} (hm : Regex.matchAt (literalProgram items).regex p = some m) :
    ∃ s us rest, items.find? (fun s => s.Applies ws) = some s ∧ ws = us ++ rest ∧ us ≠ [] ∧
      us.length = s.patternWords.length ∧ m.stop.rest = rest.flatMap spaced ∧
      m.stop.rest.length < p.rest.length ∧
      breakWords ((literalProgram items).regex.replaceFrom (literalProgram items).replacement
        (n + 1) fresh p) =
        breakWords s.replacement.toList ++ breakWords ((literalProgram items).regex.replaceFrom
          (literalProgram items).replacement n false m.stop) := by
  obtain ⟨s, g, us, rest, hfind, hthrough, hgroup, hsplit, hlength, htext, hrest⟩ :=
    exists_rule_of_matchAt hne hrules hfits hws hp hm
  have hs := hrules s (List.mem_of_find?_eq_some hfind)
  have husne : us ≠ [] := by
    rintro rfl
    exact hs.words (List.length_eq_zero_iff.1 hlength.symm)
  -- words of a rule are matched with a space at either end
  have hhead : m.text.head? = some ' ' := htext ▸ head?_flatMap_spaced husne
  have hlast : m.text.getLast? = some ' ' := htext ▸ getLast?_flatMap_spaced husne
  have htextne : m.text ≠ [] := by
    intro hnil
    rw [hnil] at hhead
    cases hhead
  refine ⟨s, us, rest, hfind, hsplit, husne, hlength, hrest, ?_, ?_⟩
  · have hpos := List.length_pos_iff.2 htextne
    rw [(Regex.Match.took_text hm).1, List.length_append]
    omega
  · rw [Regex.replaceFrom_of_some hm htextne]
    exact breakWords_replacement_append hthrough hs.kind hgroup hhead hlast _

/-- Without a match, a word stays. -/
theorem breakWords_replaceFrom_of_none (hne : items ≠ []) (hrules : ∀ s ∈ items, s.IsWordRule)
    {w : List Char} (hws : AreWords (w :: ws)) (hp : p.rest = (w :: ws).flatMap spaced)
    (hm : Regex.matchAt (literalProgram items).regex p = none)
    (replacement : Regex.Match → List Char) :
    items.find? (fun s => s.Applies (w :: ws)) = none ∧
      ∃ q, q.rest = ws.flatMap spaced ∧
        breakWords ((literalProgram items).regex.replaceFrom replacement (n + w.length + 2) fresh
          p) =
          w :: breakWords ((literalProgram items).regex.replaceFrom replacement n true q) := by
  obtain ⟨⟨hwne, hw⟩, -⟩ := List.forall_mem_cons.1 hws
  constructor
  · rw [List.find?_eq_none]
    intro s hs happlies
    obtain ⟨m, hm'⟩ := exists_matchAt_of_applies hrules hp hs (of_decide_eq_true happlies)
    exact absurd (hm.symm.trans hm') (by simp)
  · have hrest : p.rest = ' ' :: (w ++ ' ' :: ws.flatMap spaced) := by
      rw [hp]
      simp [spaced]
    have hnext : ∀ c ∈ (ws.flatMap spaced).head?, c = ' ' := by
      cases ws with
      | nil => simp
      | cons v ws => simp [spaced]
    -- first the space in front of the word, then the rest of it
    obtain ⟨q, hq, heq⟩ := Regex.replaceFrom_of_none hm hrest
    obtain ⟨q', hq', heq'⟩ := exists_replaceFrom_word hne hrules replacement
      (fun c hc => Regex.ne_space_of_isBlank (hw c hc)) hnext hq
    refine ⟨q', hq', ?_⟩
    rw [heq, heq', ← breakWords_spaced_append hwne hw, spaced]
    simp

/-- From a place on where words begin, the words are rewritten. -/
theorem breakWords_replaceFrom (hne : items ≠ []) (hrules : ∀ s ∈ items, s.IsWordRule)
    (hfits : ∀ s ∈ items, Fits s.source) (hws : AreWords ws) (hp : p.rest = ws.flatMap spaced)
    (hn : p.rest.length < n) :
    breakWords ((literalProgram items).regex.replaceFrom (literalProgram items).replacement n fresh
      p) = rewrite items ws := by
  -- each step leaves less of the text
  induction n using Nat.strongRecOn generalizing ws p fresh with
  | _ n ih =>
    cases hm : Regex.matchAt (literalProgram items).regex p with
    | some m =>
      obtain ⟨n, rfl⟩ := Nat.exists_eq_add_of_le' (show 1 ≤ n by omega)
      obtain ⟨s, us, rest, hfind, rfl, husne, hlength, hrest, hless, heq⟩ :=
        @breakWords_replaceFrom_of_matchAt items p n fresh ws hne hrules hfits hws hp m hm
      rw [heq, rewrite_of_some hfind husne hlength, ih n (by omega)
        (fun w hw => hws w (List.mem_append_right us hw)) hrest (by omega)]
    | none =>
      cases ws with
      | nil =>
        obtain ⟨n, rfl⟩ := Nat.exists_eq_add_of_le' (show 1 ≤ n by omega)
        rw [Regex.replaceFrom_of_end hm hp, rewrite]
        rfl
      | cons w ws =>
        have hlength : p.rest.length = w.length + 2 + (ws.flatMap spaced).length := by
          rw [hp, List.flatMap_cons, List.length_append]
          simp [spaced]
        obtain ⟨n, rfl⟩ := Nat.exists_eq_add_of_le' (show w.length + 2 ≤ n by omega)
        obtain ⟨hfind, q, hq, heq⟩ := @breakWords_replaceFrom_of_none items p n fresh ws hne hrules
          w hws hp hm (literalProgram items).replacement
        rw [← Nat.add_assoc, heq, rewrite_of_none hfind, ih n (by omega)
          (List.forall_mem_cons.1 hws).2 hq (by rw [hq]; omega)]

/-- The words of a text are rewritten, also if there are none. -/
theorem breakWords_replaceAll (hne : items ≠ []) (hrules : ∀ s ∈ items, s.IsWordRule)
    (hfits : ∀ s ∈ items, Fits s.source) (hws : AreWords ws) :
    breakWords ((literalProgram items).regex.replaceAll (literalProgram items).replacement
      (Substitutions.workingText ws)) = rewrite items ws := by
  rw [Regex.replaceAll_eq]
  cases ws with
  | nil =>
    -- two spaces, and no word behind either of them
    obtain ⟨q, hq, heq⟩ := @exists_replaceFrom_word items (.ofText [' ', ' ']) 5 true hne hrules
      (literalProgram items).replacement [] [' '] (by simp) (by simp) rfl
    obtain ⟨q', hq', heq'⟩ := @exists_replaceFrom_word items q 4 true hne hrules
      (literalProgram items).replacement [] [] (by simp) (by simp) hq
    have hend := @breakWords_replaceFrom items q' 4 true [] hne hrules hfits hws hq' (by simp [hq'])
    refine (congrArg breakWords heq).trans ((breakWords_cons_space _).trans ?_)
    exact (congrArg breakWords heq').trans ((breakWords_cons_space _).trans hend)
  | cons w ws =>
    rw [Substitutions.workingText_eq (List.cons_ne_nil w ws)]
    exact breakWords_replaceFrom hne hrules hfits hws rfl
      (by dsimp only [Regex.Place.ofText]; omega)

end Rewriting

end Program

/-! ## Applying rules -/

namespace Substitutions

open Substitution

/-- A list of word rules rewrites the words of a text in one pass. -/
theorem apply_eq_rewrite {items : List Substitution} (hne : items ≠ [])
    (hrules : ∀ s ∈ items, s.IsWordRule) (hfits : ∀ s ∈ items, Fits s.source)
    (hall : Fits (joinedSource (number 1 items))) (text : String) :
    (ofList items).apply text =
      String.ofList (joinWords (rewrite items (breakWords text.toList))) := by
  have hprogram : (ofList items).prepared.program? = some (literalProgram items) :=
    program?_eq_of_literal hne (fun s hs => (hrules s hs).kind) hfits hall
  unfold apply
  split
  · next h => exact absurd h hne
  · next h _ => exact absurd (hprogram.symm.trans h) (by simp)
  · next program h _ =>
    obtain rfl := Option.some.inj (hprogram.symm.trans h)
    dsimp only
    rw [Program.breakWords_replaceAll hne hrules hfits (areWords_breakWords _)]

/-- What has been put in the place of words is not rewritten again. -/
example :
    (ofList [literal " a " " b ", literal " b " " a "]).apply "a a b" = "b b a" := by
  decide +kernel

/-- Rules for words and for a phrase, one of them without a replacement. -/
def shortenings : List Substitution :=
  [literal " u " " you ", literal " by the way " " besides ", literal " u r " " your ",
    literal " um " ""]

theorem apply_eq_rewrite_shortenings :
    (∀ s ∈ shortenings, s.IsWordRule ∧ Fits s.source) ∧
      Fits (joinedSource (number 1 shortenings)) ∧
      (ofList shortenings).apply "By the  WAY um U u r, um" = "besides you you r," := by
  have hrules : ∀ s ∈ shortenings, s.IsWordRule ∧ Fits s.source := by unfold Fits; decide +kernel
  have hall : Fits (joinedSource (number 1 shortenings)) := by unfold Fits; decide +kernel
  refine ⟨hrules, hall, ?_⟩
  rw [apply_eq_rewrite (by decide) (fun s hs => (hrules s hs).1) (fun s hs => (hrules s hs).2) hall]
  decide +kernel

end Substitutions

end Parley
