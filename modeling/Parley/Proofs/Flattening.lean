import Parley.Category
import Parley.Proofs.BareTags
import Parley.Proofs.FirstEntry
import Parley.Proofs.Search.Context
import Parley.Proofs.Search.Preferred

/-!
# Flattened categories

A category is stored under one path, in which the separators are words like others. No two different
categories have the same path all the same, because the patterns for the message and for what was
said last cannot contain a word that is taken for a separator:

* a word of markup is never a name in angle brackets, because that is a tag;
* the words of a property stand behind a dollar sign, and sets are told apart from words.

The name of a topic is not markup and may hold separators. They come behind the real ones.

Main results:

* `Pattern.IsRead.not_isSeparator` — no token of a pattern is a separator;
* `samePath_append_separator` — paths are cut at their first separators;
* `Category.samePath_path_iff` — categories have the same path if they are the same part by part.
-/

namespace Parley

open Text Markup

/-! ## The words of a pattern -/

namespace Pattern

theorem mem_breakWords_of_mem_wordItems {text : List Char} {w : String}
    (h : PatternItem.word w ∈ wordItems text) : w.toList ∈ breakWords text := by
  obtain ⟨v, hv, heq⟩ := List.mem_map.1 h
  rw [← PatternItem.word.inj heq, String.toList_ofList]
  exact hv

/-- The words that a tag gives are those of the text in front of it. -/
theorem mem_breakWords_of_readTag {openElement behind : Open} {text : List Char} {tag : Tag}
    {items : List PatternItem} {w : String}
    (h : readTag openElement text tag = .ok (items, behind)) (hw : PatternItem.word w ∈ items) :
    w.toList ∈ breakWords text := by
  unfold readTag at h
  split at h
  · -- the element of a set is not made of words
    split at h
    · obtain ⟨rfl, -⟩ := Prod.mk.inj (Except.ok.inj h)
      simp at hw
    · cases h
  · split at h
    · obtain ⟨rfl, -⟩ := Prod.mk.inj (Except.ok.inj h)
      simp at hw
    · cases h
  · split at h
    · split at h <;> cases h
    · split at h
      · split at h
        · cases h
        · obtain ⟨rfl, -⟩ := Prod.mk.inj (Except.ok.inj h)
          -- only the text in front of a tag gives words
          rcases List.mem_append.1 hw with hw | hw
          · exact mem_breakWords_of_mem_wordItems hw
          · simp at hw
      · split at h
        · obtain ⟨rfl, -⟩ := Prod.mk.inj (Except.ok.inj h)
          exact mem_breakWords_of_mem_wordItems hw
        · cases h

/-- Every word of a pattern is a word of a text between tags. -/
theorem exists_text_of_ofPieces {openElement : Open} {pieces : List (List Char × Tag)}
    {last : List Char} {p : Pattern} {w : String}
    (h : ofPieces openElement pieces last = .ok p) (hw : PatternItem.word w ∈ p) :
    ∃ text, (text ∈ pieces.map Prod.fst ∨ text = last) ∧ w.toList ∈ breakWords text := by
  induction pieces generalizing openElement p with
  | nil =>
    cases openElement with
    | nothing =>
      obtain rfl : wordItems last = p := Except.ok.inj h
      exact ⟨last, Or.inr rfl, mem_breakWords_of_mem_wordItems hw⟩
    | set => cases h
    | property => cases h
  | cons piece more ih =>
    obtain ⟨text, tag⟩ := piece
    rw [ofPieces] at h
    obtain ⟨⟨items, behind⟩, hread, h⟩ := bind_eq_ok_iff.1 h
    obtain ⟨others, hrest, h⟩ := bind_eq_ok_iff.1 h
    obtain rfl : items ++ others = p := Except.ok.inj h
    -- the word stands before this tag or behind it
    rcases List.mem_append.1 hw with hw | hw
    · exact ⟨text, Or.inl (List.mem_cons_self ..), mem_breakWords_of_readTag hread hw⟩
    · obtain ⟨other, hmem, hother⟩ := ih hrest hw
      exact ⟨other, hmem.imp_left (List.mem_cons_of_mem _), hother⟩

/-- Whether a pattern is the content of some markup. -/
def IsRead (p : Pattern) : Prop := ∃ markup, parse markup = .ok p

/-- No word of a pattern is a name in angle brackets. -/
theorem IsRead.not_isBareTag {p : Pattern} (h : p.IsRead) {w : String}
    (hw : PatternItem.word w ∈ p) : ¬ IsBareTag w.toList := by
  obtain ⟨markup, hparse⟩ := h
  obtain ⟨text, hmem, hword⟩ := exists_text_of_ofPieces hparse hw
  have hclean := clean_cutAtTags markup.toList
  have huntagged : Untagged text := by
    rcases hmem with hmem | rfl
    · obtain ⟨piece, hpiece, rfl⟩ := List.mem_map.1 hmem
      exact hclean.tagged piece hpiece
    · exact hclean.last
  exact huntagged.not_isBareTag (infix_of_mem_breakWords hword)

/-- No token of a pattern is a separator, whatever the properties of the bot are. -/
theorem IsRead.not_isSeparator {p : Pattern} (h : p.IsRead) {cmp : Comparer} {separator : String}
    (hseparator : separator = Token.thatSeparator ∨ separator = Token.topicSeparator)
    (config : Config) : ∀ t ∈ p.tokens config, ¬ t.IsSeparator cmp separator := by
  intro t ht
  obtain ⟨item, hitem, ht⟩ := List.mem_flatMap.1 ht
  cases item with
  | word w =>
    rw [List.mem_singleton] at ht
    subst ht
    rintro ⟨-, hequals⟩
    rw [Token.text_ofText] at hequals
    exact h.not_isBareTag hitem (isBareTag_of_equals_separator hseparator hequals)
  | property name =>
    obtain ⟨w, -, rfl⟩ := List.mem_map.1 ht
    exact Token.not_isSeparator_priority hseparator
  | set name =>
    rw [List.mem_singleton] at ht
    subst ht
    rintro ⟨hset, -⟩
    cases hset

end Pattern

/-- The wildcard that stands in for a missing pattern is no separator. -/
theorem not_isSeparator_of_mem_thatTokens {that? : Option Pattern} (h : ∀ p ∈ that?, p.IsRead)
    {cmp : Comparer} {separator : String}
    (hseparator : separator = Token.thatSeparator ∨ separator = Token.topicSeparator)
    (config : Config) : ∀ t ∈ thatTokens config that?, ¬ t.IsSeparator cmp separator := by
  cases that? with
  | some p => exact (h p rfl).not_isSeparator hseparator config
  | none =>
    intro t ht
    rw [List.mem_singleton.1 ht]
    exact Token.not_isSeparator_of_matches_wildcard (Token.matchesUnder_self ..) hseparator

/-! ## Paths with separators -/

/-- Paths are cut at their first separators. -/
theorem samePath_append_separator {cmp : Comparer} {separator : String} {p p' : List Token}
    (hp : ∀ t ∈ p, ¬ t.IsSeparator cmp separator) (hp' : ∀ t ∈ p', ¬ t.IsSeparator cmp separator)
    (q q' : List Token) :
    samePath cmp (p ++ .word separator :: q) (p' ++ .word separator :: q') =
      (samePath cmp p p' && samePath cmp q q') := by
  induction p generalizing p' with
  | nil =>
    cases p' with
    | nil => simp [samePath]
    | cons u p' =>
      -- the separator of one path cannot match a token of the other in front of its own
      have hu : (Token.word separator).matchesUnder cmp u = false := by
        rw [← Bool.not_eq_true, ← Token.isSeparator_iff_matchesUnder]
        exact hp' u (List.mem_cons_self ..)
      simp [samePath, hu]
  | cons t p ih =>
    have hp₁ : ∀ t ∈ p, ¬ t.IsSeparator cmp separator := fun t ht =>
      hp t (List.mem_cons_of_mem _ ht)
    cases p' with
    | nil =>
      have ht : t.matchesUnder cmp (.word separator) = false := by
        rw [← Bool.not_eq_true]
        intro hmatches
        obtain ⟨hset, hkey⟩ := Token.matchesUnder_iff.1 hmatches
        exact hp t (List.mem_cons_self ..) ⟨hset, (cmp.equals_iff_key_eq ..).2 hkey⟩
      simp [samePath, ht]
    | cons u p' =>
      rw [List.cons_append, List.cons_append, samePath, samePath, Bool.and_assoc,
        ih hp₁ fun u hu => hp' u (List.mem_cons_of_mem _ hu)]

/-! ## Categories -/

namespace Category

/-- Whether the patterns of a category for the message and for what was said last are the contents
of some markup. -/
structure IsRead (c : Category) : Prop where
  pattern : c.pattern.IsRead
  that : ∀ p ∈ c.that?, p.IsRead

/-- Whether two categories, which may stand under topics, are the same part by part. -/
structure SameParts (config : Config) (c d : Category) (cTopic? dTopic? : Option String) :
    Prop where
  pattern : samePath config.comparer (c.pattern.tokens config) (d.pattern.tokens config) = true
  that : samePath config.comparer (thatTokens config c.that?) (thatTokens config d.that?) = true
  topic : samePath config.comparer (topicTokens config cTopic? c.topic?)
    (topicTokens config dTopic? d.topic?) = true

variable {c d : Category}

/-- The first separator of a path is the one behind the pattern, and the next one is behind what was
said last. -/
theorem samePath_path (config : Config) (hc : c.IsRead) (hd : d.IsRead)
    (cTopic? dTopic? : Option String) :
    samePath config.comparer (c.path config cTopic?) (d.path config dTopic?) = true ↔
      c.SameParts config d cTopic? dTopic? := by
  have hpattern := @samePath_append_separator config.comparer _ _ _
    (hc.pattern.not_isSeparator (Or.inl rfl) config)
    (hd.pattern.not_isSeparator (Or.inl rfl) config)
  have hthat := @samePath_append_separator config.comparer _ _ _
    (not_isSeparator_of_mem_thatTokens hc.that (Or.inr rfl) config)
    (not_isSeparator_of_mem_thatTokens hd.that (Or.inr rfl) config)
  rw [path, path, compilePath, compilePath, hpattern, hthat, Bool.and_eq_true, Bool.and_eq_true]
  exact ⟨fun ⟨h₁, h₂, h₃⟩ => ⟨h₁, h₂, h₃⟩, fun h => ⟨h.pattern, h.that, h.topic⟩⟩

/-- **Categories have the same path exactly if they are the same part by part.** A separator is
matched by no token of the pattern for the message or of the one for what was said last. So, of two
categories, the first is in the way of the second exactly if their parts are the same. -/
theorem samePath_path_iff (config : Config) (hc : c.IsRead) (hd : d.IsRead)
    (cTopic? dTopic? : Option String) :
    (samePath config.comparer (c.path config cTopic?) (d.path config dTopic?) = true ↔
      c.SameParts config d cTopic? dTopic?) ∧
    (∀ t ∈ c.pattern.tokens config ++ thatTokens config c.that?,
      (Token.word Token.thatSeparator).matchesUnder config.comparer t = false ∧
        (Token.word Token.topicSeparator).matchesUnder config.comparer t = false) ∧
    ∀ g : Graph Template, g.comparer = config.comparer → g.get? (d.path config dTopic?) = none →
      (((g.insert (c.path config cTopic?) c.template).1.insert (d.path config dTopic?)
        d.template).2 = some c.template ↔ c.SameParts config d cTopic? dTopic?) := by
  refine ⟨samePath_path config hc hd cTopic? dTopic?, ?_, ?_⟩
  · intro t ht
    have hnot : ∀ separator, separator = Token.thatSeparator ∨ separator = Token.topicSeparator →
        (Token.word separator).matchesUnder config.comparer t = false := by
      intro separator hseparator
      rw [← Bool.not_eq_true, ← Token.isSeparator_iff_matchesUnder]
      rcases List.mem_append.1 ht with ht | ht
      · exact hc.pattern.not_isSeparator hseparator config t ht
      · exact not_isSeparator_of_mem_thatTokens hc.that hseparator config t ht
    exact ⟨hnot _ (Or.inl rfl), hnot _ (Or.inr rfl)⟩
  · intro g hg hnone
    show (g.insert (c.path config cTopic?) c.template).1.get? (d.path config dTopic?) = _ ↔ _
    rw [Graph.get?_insert_eq, hg, ← samePath_path config hc hd]
    split
    · next hsame =>
      -- the path of the first category was as free as that of the second
      have hfree : g.get? (c.path config cTopic?) = none := by
        rw [Graph.get?_eq_valueAt?, hg, Node.valueAt?_congr hsame, ← hg, ← Graph.get?_eq_valueAt?,
          hnone]
      simp [hfree, hsame]
    · next hother => simp [hnone, hother]

/-- Two categories that are the same without regard to case, under topics that are spelled like
separators; the brackets in their patterns are words, because a blank keeps them from being tags. -/
theorem samePath_path_iff_hello :
    let c : Category :=
      { pattern := [.word "HELLO", .word "<", .word "that>"], template := .ofText "Hi!" }
    let d : Category :=
      { pattern := [.word "hello", .word "<", .word "THAT>"], that? := some [.word "*"]
        template := .ofText "Ho!" }
    let g : Graph Template := .empty .ignoreCase
    Pattern.parse "HELLO < that>" = .ok c.pattern ∧ Pattern.parse "hello < THAT>" = .ok d.pattern ∧
      Pattern.parse "*" = .ok [.word "*"] ∧ c.SameParts {} d (some "<that> <topic>")
        (some "<THAT>  <TOPIC>") ∧
      ((g.insert (c.path {} (some "<that> <topic>")) c.template).1.insert
        (d.path {} (some "<THAT>  <TOPIC>")) d.template).2 = some c.template := by
  intro c d g
  have hc : c.IsRead := ⟨⟨"HELLO < that>", by decide +kernel⟩, nofun⟩
  have hd : d.IsRead := by
    refine ⟨⟨"hello < THAT>", by decide +kernel⟩, ?_⟩
    intro p hp
    obtain rfl := Option.mem_some_iff.1 hp
    exact ⟨"*", by decide +kernel⟩
  obtain ⟨hparts, -, hgraph⟩ :=
    samePath_path_iff {} hc hd (some "<that> <topic>") (some "<THAT>  <TOPIC>")
  have hsame := hparts.1 (by decide +kernel)
  exact ⟨by decide +kernel, by decide +kernel, by decide +kernel, hsame,
    (hgraph g rfl (Node.valueAt?_empty _)).2 hsame⟩

end Category

end Parley
