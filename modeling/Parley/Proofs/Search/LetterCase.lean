import Parley.Proofs.LetterCase
import Parley.Proofs.Search.Priority

/-!
# Searching without regard to case

Under a comparer that ignores case, two inputs in ASCII that differ in the case of letters only meet
the same entries. A search looks at the words of an input in four ways: by the key of a word, by the
key of its preferred form, in the test for reserved words, and as a phrase of a set. None of them
tells the two inputs apart, so that the same choices lead both along the same edges, and the first
match of one is the first match of the other.

Main results:

* `Node.rel_advance?`, `Node.rel_follow?` — a choice, and so a match, leads both inputs alike;
* `Graph.rel_firstMatch?` — the first matches of both inputs are the same;
* `search_ignores_case` — searches for both inputs end alike.
-/

namespace Parley

open Text

variable {α : Type}

/-! ## Words under one key -/

/-- Words under one key are the symbol of the same wildcard, or of none. -/
theorem Wildcard.ofSymbol?_of_key_eq {cmp : Comparer} {w v : String} (h : cmp.key w = cmp.key v) :
    ofSymbol? w = ofSymbol? v := by
  have hsymbol : ∀ s x, ofSymbol? s = some x ↔ cmp.key s = x.symbol := by
    intro s x
    rw [Comparer.key_eq_symbol_iff]
    constructor
    · exact fun hs => (symbol_of_ofSymbol? hs).symm
    · rintro rfl
      exact ofSymbol?_symbol x
  apply Option.ext
  intro x
  rw [hsymbol, hsymbol, h]

/-- Words under one key are both reserved, or neither is. -/
theorem Node.isReserved_of_key_eq {cmp : Comparer} {w v : String} (h : cmp.key w = cmp.key v) :
    isReserved cmp w = isReserved cmp v := by
  rw [isReserved, isReserved, Wildcard.ofSymbol?_of_key_eq h, Comparer.equals, Comparer.equals,
    Comparer.equals, Comparer.equals, h]

/-! ## What differs in case only -/

/-- Whether the words of two inputs differ in case only, one by one. -/
def Input.Recased (input input' : Input) : Prop :=
  ∀ s, List.Forall₂ Text.Recased (input.segment s) (input'.segment s)

/-- Whether two positions are in the same segment, with words ahead that differ in case only. -/
structure Cursor.Recased (c c' : Cursor) : Prop where
  segment : c'.segment = c.segment
  ahead : List.Forall₂ Text.Recased c.ahead c'.ahead

/-- Whether the texts taken are as many for each segment, and differ in case only. -/
def Captures.Recased (t t' : Captures) : Prop :=
  ∀ s, List.Forall₂ SameLetters (t.get s) (t'.get s)

/-- Whether two stages of a search are the same up to the case of the texts taken. -/
structure Progress.Recased (p p' : Progress) : Prop where
  trail : p'.trail = p.trail
  captures : p.captures.Recased p'.captures

/-- Whether two ways lead to one entry along the same labels, with texts that differ in case
only. -/
structure Way.Recased (way way' : Way α) : Prop where
  entry : way'.entry = way.entry
  progress : way.progress.Recased way'.progress

/-- Whether two inputs are led along one edge, with texts taken that differ in case only. -/
structure Advance.Recased (a a' : Advance α) : Prop where
  label : a'.label = a.label
  taken : Option.Rel SameLetters a.taken? a'.taken?
  child : a'.child = a.child
  cursor : a.cursor.Recased a'.cursor

/-- Whether two matches are the same up to the case of the texts taken. -/
structure Found.Recased (found found' : Found α) : Prop where
  entry : found'.entry = found.entry
  root : found'.root = found.root
  path : found'.path = found.path
  captures : found.captures.Recased found'.captures

/-- Texts that differ in case only have as many words, which do, too. -/
theorem Input.recased_ofTexts {message message' that that' topic topic' : String}
    (hmessage : Text.Recased message message') (hthat : Text.Recased that that')
    (htopic : Text.Recased topic topic') :
    (ofTexts message that topic).Recased (ofTexts message' that' topic') := by
  intro s
  cases s with
  | message => exact hmessage.words
  | that => exact hthat.words
  | topic => exact htopic.words

namespace Cursor.Recased

variable {c c' : Cursor}

/-- At the start of a segment all its words are ahead. -/
theorem startOf {input input' : Input} (h : input.Recased input') (s : Segment) :
    (Cursor.startOf input s).Recased (Cursor.startOf input' s) :=
  ⟨rfl, h s⟩

/-- The same number of words is skipped. -/
theorem skip (h : c.Recased c') (n : Nat) : (c.skip n).Recased (c'.skip n) :=
  ⟨h.segment, List.forall₂_drop n h.ahead⟩

/-- What the same number of words ahead make differs in case only. -/
theorem taken (h : c.Recased c') (n : Nat) :
    Text.Recased (unwords (c.ahead.take n)) (unwords (c'.ahead.take n)) :=
  .unwords (List.forall₂_take n h.ahead)

/-- Both are at the end or neither is. -/
theorem atEnd_eq (h : c.Recased c') : c'.atEnd = c.atEnd := by
  obtain ⟨s, ahead⟩ := c
  obtain ⟨s', ahead'⟩ := c'
  obtain ⟨rfl, hahead⟩ := h
  cases hahead <;> rfl

end Cursor.Recased

/-- One text more on both sides. -/
theorem Captures.Recased.push {t t' : Captures} (h : t.Recased t') (s : Segment)
    {text text' : String} (htext : SameLetters text text') :
    (t.push s text).Recased (t'.push s text') := by
  intro r
  rw [get_push, get_push]
  split
  · exact List.rel_append (h r) (.cons htext .nil)
  · exact h r

/-- An edge adds the same label and the same text up to case. -/
theorem Advance.Recased.progress {a a' : Advance α} (h : a.Recased a') {p p' : Progress}
    (hp : p.Recased p') (s : Segment) : (a.progress s p).Recased (a'.progress s p') := by
  refine ⟨?_, ?_⟩
  · rw [Advance.progress, Advance.progress, h.label, hp.trail]
  · obtain ⟨label, taken?, child, cursor⟩ := a
    obtain ⟨label', taken?', child', cursor'⟩ := a'
    have htaken : Option.Rel SameLetters taken? taken?' := h.taken
    cases htaken with
    | none => exact hp.captures
    | some htext => exact hp.captures.push s htext

/-! ## Following the same choices -/

section Rel

variable {β γ : Type} {r : β → β → Prop} {s : γ → γ → Prop}

/-- What holds of the values of two functions holds of optional ones. -/
theorem rel_map {f g : β → γ} (h : ∀ b, s (f b) (g b)) (b? : Option β) :
    Option.Rel s (b?.map f) (b?.map g) := by
  cases b? with
  | none => exact .none
  | some b => exact .some (h b)

/-- One step after the other, each taken on both sides or on neither. -/
theorem rel_bind {b? b?' : Option β} {f g : β → Option γ} (hb : Option.Rel r b? b?')
    (h : ∀ b b', r b b' → Option.Rel s (f b) (g b')) :
    Option.Rel s (b?.bind f) (b?'.bind g) := by
  cases hb with
  | none => exact .none
  | some hb => exact h _ _ hb

/-- Both have a value or neither has. -/
theorem isSome_eq_of_rel {b? b?' : Option β} (h : Option.Rel r b? b?') :
    b?'.isSome = b?.isSome := by
  cases h <;> rfl

/-- If the one has a value, so has the other. -/
theorem exists_of_rel_some {b : β} {b?' : Option β} (h : Option.Rel r (some b) b?') :
    ∃ b', b?' = some b' ∧ r b b' := by
  cases h with
  | some hb => exact ⟨_, rfl, hb⟩

end Rel

namespace Node

variable {options : SearchOptions} {input input' : Input} {n : Node α} {c c' : Cursor}

/-- What a wildcard takes is the words, or the same text for no words. -/
theorem sameLetters_takenText {ws vs : List String} (h : List.Forall₂ Text.Recased ws vs) :
    SameLetters (takenText (options.query .ignoreCase input) ws)
      (takenText (options.query .ignoreCase input') vs) := by
  cases h with
  | nil => rfl
  | cons hw hws => exact (Text.Recased.unwords (.cons hw hws)).same

/-- Texts under one key lead both inputs along the same edge for a word, or neither. -/
theorem rel_word {text text' : String}
    (hkey : Comparer.ignoreCase.key text = Comparer.ignoreCase.key text') (hc : c.Recased c') :
    Option.Rel Advance.Recased
      ((n.child? .ignoreCase text).map fun (t, child) =>
        { label := t.text, taken? := none, child, cursor := c })
      ((n.child? .ignoreCase text').map fun (t, child) =>
        { label := t.text, taken? := none, child, cursor := c' }) := by
  rw [child?, child?, hkey]
  refine rel_map ?_ _
  rintro ⟨t, child⟩
  exact ⟨rfl, .none, rfl, hc⟩

/-- A wildcard takes as many words on both sides. -/
theorem rel_wildcard (hc : c.Recased c') (w : Wildcard) (k : Nat) :
    Option.Rel Advance.Recased
      (n.advance? (options.query .ignoreCase input) c (.wildcard w k))
      (n.advance? (options.query .ignoreCase input') c' (.wildcard w k)) := by
  rw [advance?, advance?, hc.ahead.length_eq]
  split
  · refine rel_map ?_ _
    rintro ⟨-, child⟩
    exact ⟨rfl, .some (sameLetters_takenText (List.forall₂_take k hc.ahead)), rfl, hc.skip k⟩
  · exact .none

/-- A phrase is in a set in any case of its letters. -/
theorem rel_phrase (hsets : options.sets.BuiltUnder .ignoreCase) (hc : c.Recased c') (i k : Nat) :
    Option.Rel Advance.Recased (n.advance? (options.query .ignoreCase input) c (.phrase i k))
      (n.advance? (options.query .ignoreCase input') c' (.phrase i k)) := by
  dsimp only [advance?, SearchOptions.query]
  cases n.sets[i]? with
  | none => exact .none
  | some edge =>
    dsimp only [Option.bind_some]
    cases hset : options.sets.get? edge.1 with
    | none => exact .none
    | some set =>
      dsimp only [Option.bind_some]
      rw [hc.ahead.length_eq, PhraseSet.contains_recased (hsets.of_get? hset) (hc.taken k)]
      split
      · exact .some ⟨rfl, .some (hc.taken k).same, rfl, hc.skip k⟩
      · exact .none

/-- **A choice leads both inputs along the same edge, or neither.** -/
theorem rel_advance? (hsets : options.sets.BuiltUnder .ignoreCase) (hinput : input.Recased input')
    (hc : c.Recased c') (ch : Choice) :
    Option.Rel Advance.Recased (n.advance? (options.query .ignoreCase input) c ch)
      (n.advance? (options.query .ignoreCase input') c' ch) := by
  -- the other two kinds of choices look at the first word ahead
  cases ch with
  | wildcard w k => exact rel_wildcard hc w k
  | phrase i k => exact rel_phrase hsets hc i k
  | preferred =>
    obtain ⟨s, ahead⟩ := c
    obtain ⟨s', ahead'⟩ := c'
    obtain ⟨rfl, hahead⟩ := hc
    cases hahead with
    | nil => exact .none
    | cons hw hrest => exact rel_word hw.key_dollar_eq ⟨rfl, hrest⟩
  | plain =>
    obtain ⟨s, ahead⟩ := c
    obtain ⟨s', ahead'⟩ := c'
    obtain ⟨rfl, hahead⟩ := hc
    cases hahead with
    | nil =>
      dsimp only [advance?]
      cases s'.separator? with
      | none => exact .none
      | some separator =>
        refine rel_map ?_ _
        rintro ⟨-, child⟩
        exact ⟨rfl, .none, rfl, .startOf hinput _⟩
    | cons hw hrest =>
      dsimp only [advance?, SearchOptions.query]
      rw [isReserved_of_key_eq hw.key_eq]
      split
      · exact .none
      · exact rel_word hw.key_eq ⟨rfl, hrest⟩

/-- **A match of one input is a match of the other,** with the same entry along the same labels. -/
theorem rel_follow? (hsets : options.sets.BuiltUnder .ignoreCase) (hinput : input.Recased input')
    (hc : c.Recased c') {p p' : Progress} (hp : p.Recased p') (chs : List Choice) :
    Option.Rel Way.Recased (n.follow? (options.query .ignoreCase input) c p chs)
      (n.follow? (options.query .ignoreCase input') c' p' chs) := by
  induction chs generalizing n c c' p p' with
  | nil =>
    rw [follow?, follow?, hc.atEnd_eq]
    split
    · cases n.value? with
      | none => exact .none
      | some entry => exact .some ⟨rfl, hp⟩
    · exact .none
  | cons ch chs ih =>
    rw [follow?, follow?, hc.segment]
    refine rel_bind (rel_advance? hsets hinput hc ch) ?_
    intro a a' ha
    rw [ha.child]
    exact ih ha.cursor (ha.progress hp c.segment)

end Node

/-! ## Searching -/

namespace Graph

variable {options : SearchOptions} {input input' : Input} {g : Graph α}

/-- The same choices lead to the same entry. -/
theorem rel_match? (hg : g.comparer = .ignoreCase) (hsets : options.sets.BuiltUnder .ignoreCase)
    (hinput : input.Recased input') (chs : List Choice) :
    Option.Rel Way.Recased (g.match? options input chs) (g.match? options input' chs) := by
  rw [match?, match?, hg]
  refine Node.rel_follow? hsets hinput (.startOf hinput .message) ⟨rfl, ?_⟩ chs
  intro s
  cases s <;> exact .nil

/-- **The first matches of both inputs are the same,** or neither has one. -/
theorem rel_firstMatch? (hg : g.comparer = .ignoreCase)
    (hsets : options.sets.BuiltUnder .ignoreCase) (hinput : input.Recased input') :
    Option.Rel Way.Recased (g.firstMatch? options input) (g.firstMatch? options input') := by
  -- the same lists of choices are matches of both inputs, so that the least of them is the same
  have hmatch := rel_match? hg hsets hinput
  cases hfirst : g.firstMatch? options input with
  | none =>
    have hnone : g.firstMatch? options input' = none := by
      rw [firstMatch?_eq_none_iff] at hfirst ⊢
      intro chs
      rw [← Option.not_isSome_iff_eq_none, isSome_eq_of_rel (hmatch chs), hfirst chs]
      exact Bool.false_ne_true
    rw [hnone]
    exact .none
  | some way =>
    obtain ⟨chs, hchs, hleast⟩ := firstMatch?_eq_some_iff.1 hfirst
    have hrel := hmatch chs
    rw [hchs] at hrel
    obtain ⟨way', hchs', hway⟩ := exists_of_rel_some hrel
    have hsome : g.firstMatch? options input' = some way' := by
      refine firstMatch?_eq_some_iff.2 ⟨chs, hchs', fun others hothers => hleast others ?_⟩
      rwa [← isSome_eq_of_rel (hmatch others)]
    rw [hsome]
    exact .some hway

end Graph

/-- Whether two searches end alike: both are given up for the same cause, both find nothing, or both
find the same up to the case of the texts taken. -/
inductive SameOutcome :
    Except Abort (Option (Found α)) → Except Abort (Option (Found α)) → Prop where
  | failed (cause : Abort) : SameOutcome (.error cause) (.error cause)
  | nothing : SameOutcome (.ok none) (.ok none)
  | found {found found' : Found α} (h : found.Recased found') :
      SameOutcome (.ok (some found)) (.ok (some found'))

/-- The match that a way stands for. -/
theorem Way.Recased.found {way way' : Way α} (h : way.Recased way') (root : Nat) :
    (way.found root).Recased (way'.found root) := by
  refine ⟨h.entry, rfl, ?_, h.progress.captures⟩
  rw [Way.found, Way.found, h.progress.trail]

section Outcome

variable {options : SearchOptions} {graphs : List (Graph α)} {input input' : Input}

/-- Going through graphs for both inputs ends alike, as long as there is time. -/
theorem sameOutcome_searchFrom (htime : options.expired = false)
    (hgraphs : ∀ g ∈ graphs, g.comparer = .ignoreCase)
    (hsets : options.sets.BuiltUnder .ignoreCase) (hinput : input.Recased input') (root : Nat) :
    SameOutcome (searchFrom options input root graphs).result
      (searchFrom options input' root graphs).result := by
  induction graphs generalizing root with
  | nil => exact .nothing
  | cons g graphs ih =>
    rw [List.forall_mem_cons] at hgraphs
    rw [result_searchFrom_cons input root g graphs htime,
      result_searchFrom_cons input' root g graphs htime]
    have hfirst := Graph.rel_firstMatch? hgraphs.1 hsets hinput
    generalize g.firstMatch? options input = way? at hfirst ⊢
    generalize g.firstMatch? options input' = way?' at hfirst ⊢
    cases hfirst with
    | none => exact ih hgraphs.2 (root + 1)
    | some hway => exact .found (hway.found root)

/-- The preferred match is the same, as the same choices match. -/
theorem sameOutcome_search (hgraphs : ∀ g ∈ graphs, g.comparer = .ignoreCase)
    (hsets : options.sets.BuiltUnder .ignoreCase) (hinput : input.Recased input') :
    SameOutcome (search options graphs input).result (search options graphs input').result := by
  by_cases hdepth : options.depth ≤ options.recursionLimit
  · rw [result_search graphs input hdepth, result_search graphs input' hdepth]
    cases htime : options.expired with
    | true =>
      -- the time is up before the first graph, if there is one
      cases graphs with
      | nil => exact .nothing
      | cons g graphs =>
        rw [searchFrom, searchFrom, htime, if_pos rfl, if_pos rfl]
        exact .failed .timeout
    | false => exact sameOutcome_searchFrom htime hgraphs hsets hinput 0
  · rw [search, search, if_pos (Nat.lt_of_not_le hdepth), if_pos (Nat.lt_of_not_le hdepth)]
    exact .failed .recursionLimit

/-- **Matching ignores the case of letters.** If the comparer of the graphs and of the sets ignores
case, two inputs in ASCII that differ in the case of letters only are searched for alike: both find
nothing, or both find the same entry in the same graph along the same path, and take equally many
texts for each segment, which differ in case only. Searches are given up for the same cause, and
within their limits they are not given up. -/
theorem search_ignores_case (hgraphs : ∀ g ∈ graphs, g.comparer = .ignoreCase)
    (hsets : options.sets.BuiltUnder .ignoreCase)
    {message message' that that' topic topic' : String} (hmessage : Recased message message')
    (hthat : Recased that that') (htopic : Recased topic topic') :
    SameOutcome (search options graphs (.ofTexts message that topic)).result
        (search options graphs (.ofTexts message' that' topic')).result ∧
      (options.depth ≤ options.recursionLimit → options.expired = false →
        ∃ found?, (search options graphs (.ofTexts message that topic)).result = .ok found?) :=
  ⟨sameOutcome_search hgraphs hsets (Input.recased_ofTexts hmessage hthat htopic),
    exists_result_search graphs _⟩

/-- Two spellings of a remark on a color meet one entry, and what is taken is spelled as in each. -/
theorem search_ignores_case_colors :
    let sets := (SetTable.withBuiltIns .ignoreCase).insert "color"
      (.ofPhrases .ignoreCase ["Navy Blue", "red"])
    let options := { SearchOptions.unhindered .ignoreCase with sets }
    let path : List Token :=
      [.priority "Mine", .word "is", .set "Color", .wildcard .zeroOrMore, .word "<that>",
        .wildcard .oneOrMore, .word "<topic>", .wildcard .oneOrMore]
    let g := ((Graph.empty .ignoreCase).insert path "So is mine.").1
    let taken := fun message that topic : String =>
      (search options [g] (.ofTexts message that topic)).result.toOption.map
        fun found? => found?.map Found.captures
    SameOutcome (search options [g] (.ofTexts "MINE is navy BLUE" "Which color" "any")).result
        (search options [g] (.ofTexts "mine IS Navy Blue" "which COLOR" "Any")).result ∧
      taken "MINE is navy BLUE" "Which color" "any" =
        some (some ⟨["navy BLUE", "nil"], ["Which color"], ["any"]⟩) ∧
      taken "mine IS Navy Blue" "which COLOR" "Any" =
        some (some ⟨["Navy Blue", "nil"], ["which COLOR"], ["Any"]⟩) := by
  intro sets options path g taken
  have hsets : sets.BuiltUnder .ignoreCase :=
    .insert "color" (.insert "word" (.insert "number" .empty .number) .word) (.ofPhrases _)
  obtain ⟨houtcome, -⟩ := @search_ignores_case String options [g]
    (List.forall_mem_singleton.2 (by decide +kernel)) hsets
    "MINE is navy BLUE" "mine IS Navy Blue" "Which color" "which COLOR" "any" "Any"
    (by decide +kernel) (by decide +kernel) (by decide +kernel)
  exact ⟨houtcome, by decide +kernel, by decide +kernel⟩

end Outcome

end Parley
