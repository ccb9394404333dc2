import Parley.Proofs.Markup.Syntax

/-!
# Texts and tags

Markup as a sequence of texts and tags, where the tags are the leftmost occurrences of the syntax
that do not overlap. Main result: `lexed_iff`, cutting markup at its tags finds exactly these.
-/

namespace Parley.Markup

open Text

/-! ## Sequences -/

/-- A part of markup: a tag, or the text between tags. -/
inductive Lexeme where
  | text (s : List Char)
  | tag (t : Tag)
  deriving DecidableEq, Repr

/-- A text as a sequence of parts; there are no empty texts. -/
def textLexemes (s : List Char) : List Lexeme := if s.isEmpty then [] else [.text s]

/-- Whether no tag begins within a text that has something behind it. -/
def TagFree (text behind : List Char) : Prop :=
  ∀ rest, rest <:+ text → rest ≠ [] → ∀ u t, TagText u t → ¬u <+: rest ++ behind

/-- Whether markup has the given parts. Its tags are the leftmost occurrences that do not overlap:
each is the first one behind the tag before it. -/
inductive Lexed : List Char → List Lexeme → Prop where
  | last {text : List Char} (hfree : TagFree text []) : Lexed text (textLexemes text)
  | tag {text u behind : List Char} {t : Tag} {ls : List Lexeme}
    (hfree : TagFree text (u ++ behind)) (htag : TagText u t) (hbehind : Lexed behind ls) :
    Lexed (text ++ (u ++ behind)) (textLexemes text ++ .tag t :: ls)

/-- No tag begins in the empty text. -/
theorem tagFree_nil (behind : List Char) : TagFree [] behind := by
  intro rest hrest hne
  exact absurd (List.suffix_nil.1 hrest) hne

/-- No tag begins at the first character or behind it. -/
theorem tagFree_cons {c : Char} {text behind : List Char} :
    TagFree (c :: text) behind ↔
      (∀ u t, TagText u t → ¬u <+: c :: (text ++ behind)) ∧ TagFree text behind := by
  constructor
  · intro h
    exact ⟨h _ (List.suffix_refl _) (List.cons_ne_nil c text),
      fun rest hrest => h rest (hrest.trans (List.suffix_cons c text))⟩
  · rintro ⟨hfirst, hrest⟩ rest hsuffix hne
    rcases List.suffix_cons_iff.1 hsuffix with rfl | hsuffix
    · exact hfirst
    · exact hrest rest hsuffix hne

/-- A text without opening brackets has no tags. -/
theorem tagFree_of_not_mem {text : List Char} (h : '<' ∉ text) (behind : List Char) :
    TagFree text behind := by
  rintro rest hrest hne u t hu hprefix
  obtain ⟨c, rest, rfl⟩ := List.exists_cons_of_ne_nil hne
  obtain ⟨inside, rfl, -⟩ := readTag?_append hu
  obtain rfl := (List.cons_prefix_cons.1 hprefix).1
  exact h (hrest.subset List.mem_cons_self)

/-- A bracket that is read as no tag begins none. -/
theorem readTag?_eq_none_iff {s : List Char} :
    readTag? s = none ↔ ∀ u t, TagText u t → ¬u <+: '<' :: s := by
  constructor
  · rintro hnone u t hu ⟨rest, hs⟩
    rw [readTag?_eq_some_iff.2 ⟨u, hu, hs.symm⟩] at hnone
    cases hnone
  · intro h
    rw [Option.eq_none_iff_forall_ne_some]
    rintro ⟨t, rest⟩ hsome
    obtain ⟨u, hu, hs⟩ := readTag?_eq_some_iff.1 hsome
    exact h u t hu ⟨rest, hs.symm⟩

/-! ## Cutting -/

/-- The parts of cut markup in order. -/
def Pieces.lexemes (p : Pieces) : List Lexeme :=
  (p.tagged.flatMap fun piece => textLexemes piece.1 ++ [.tag piece.2]) ++ textLexemes p.last

/-- A tag that is read is cut off. -/
theorem cutAtTags_of_some {s rest : List Char} {t : Tag} (h : readTag? s = some (t, rest)) :
    cutAtTags ('<' :: s) = (cutAtTags rest).consTag t := by
  rw [cutAtTags, if_pos (by rfl)]
  split
  · next hsome =>
    rw [h] at hsome
    obtain ⟨rfl, rfl⟩ := Prod.mk.inj (Option.some.inj hsome)
    rfl
  · next hnone =>
    rw [h] at hnone
    cases hnone

/-- A character that begins no tag belongs to the text. -/
theorem cutAtTags_of_no_tag {c : Char} {s : List Char}
    (h : ∀ u t, TagText u t → ¬u <+: c :: s) : cutAtTags (c :: s) = (cutAtTags s).consChar c := by
  rw [cutAtTags]
  split
  · next hc =>
    obtain rfl := eq_of_beq hc
    split
    · next hsome =>
      rw [readTag?_eq_none_iff.2 h] at hsome
      cases hsome
    · rfl
  · rfl

/-- Text without tags is in front of the first piece. -/
theorem cutAtTags_append {text behind : List Char} (h : TagFree text behind) :
    cutAtTags (text ++ behind) = text.foldr Pieces.consChar (cutAtTags behind) := by
  induction text with
  | nil => rfl
  | cons c text ih =>
    obtain ⟨hfirst, hrest⟩ := tagFree_cons.1 h
    rw [List.cons_append, cutAtTags_of_no_tag hfirst, ih hrest, List.foldr_cons]

/-- If there is no tag, the text is in front of what is last. -/
theorem foldr_consChar_nil (text last : List Char) :
    text.foldr Pieces.consChar { tagged := [], last } =
      { tagged := [], last := text ++ last } := by
  induction text with
  | nil => rfl
  | cons c text ih => rw [List.foldr_cons, ih]; rfl

/-- If there is one, the text is in front of the text before it. -/
theorem foldr_consChar_cons (text s : List Char) (t : Tag) (more : List (List Char × Tag))
    (last : List Char) :
    text.foldr Pieces.consChar { tagged := (s, t) :: more, last } =
      { tagged := (text ++ s, t) :: more, last } := by
  induction text with
  | nil => rfl
  | cons c text ih => rw [List.foldr_cons, ih]; rfl

/-- A tag that comes first has the text in front of it. -/
theorem foldr_consChar_consTag (text : List Char) (t : Tag) (p : Pieces) :
    text.foldr Pieces.consChar (p.consTag t) = { p with tagged := (text, t) :: p.tagged } := by
  rw [Pieces.consTag, foldr_consChar_cons, List.append_nil]

/-- Markup has one sequence of parts, the one that it is cut into. -/
theorem Lexed.eq_lexemes {s : List Char} {ls : List Lexeme} (h : Lexed s ls) :
    ls = (cutAtTags s).lexemes := by
  induction h with
  | @last text hfree =>
    have hcut := cutAtTags_append hfree
    rw [List.append_nil, cutAtTags, foldr_consChar_nil, List.append_nil] at hcut
    rw [hcut]
    rfl
  | @tag text u behind t ls hfree htag _ ih =>
    obtain ⟨inside, rfl, hread⟩ := readTag?_append htag
    rw [cutAtTags_append hfree, List.cons_append, cutAtTags_of_some (hread behind),
      foldr_consChar_consTag, Pieces.lexemes, List.flatMap_cons, ih, Pieces.lexemes]
    simp

/-- All markup has one. -/
theorem exists_lexed (s : List Char) : ∃ ls, Lexed s ls := by
  -- a character that begins no tag belongs to the text in front of the next one
  have hchar : ∀ {c : Char} {s : List Char}, (∀ u t, TagText u t → ¬u <+: c :: s) →
      (∃ ls, Lexed s ls) → ∃ ls, Lexed (c :: s) ls := by
    rintro c s hno ⟨ls, hls⟩
    cases hls with
    | last hfree =>
      refine ⟨_, .last (tagFree_cons.2 ⟨?_, hfree⟩)⟩
      rw [List.append_nil]
      exact hno
    | tag hfree htag hbehind =>
      exact ⟨_, @Lexed.tag (c :: _) _ _ _ _ (tagFree_cons.2 ⟨hno, hfree⟩) htag hbehind⟩
  fun_induction cutAtTags s with
  | case1 => exact ⟨_, .last (tagFree_nil [])⟩
  | case2 c rest hc tag after h ih =>
    obtain rfl := eq_of_beq hc
    obtain ⟨u, hu, hs⟩ := exists_of_readTag? h
    obtain ⟨ls, hls⟩ := ih
    rw [hs]
    exact ⟨_, @Lexed.tag [] _ _ _ _ (tagFree_nil _) hu hls⟩
  | case3 c rest hc h ih =>
    obtain rfl := eq_of_beq hc
    exact hchar (readTag?_eq_none_iff.1 h) ih
  | case4 c rest hc ih =>
    refine hchar (fun u t hu hprefix => hc ?_) ih
    obtain ⟨inside, rfl, -⟩ := readTag?_append hu
    exact beq_iff_eq.2 (List.cons_prefix_cons.1 hprefix).1.symm

/-- Markup is cut at the leftmost occurrences of tags that do not overlap. -/
theorem lexed_iff {s : List Char} {ls : List Lexeme} :
    Lexed s ls ↔ ls = (cutAtTags s).lexemes := by
  refine ⟨Lexed.eq_lexemes, ?_⟩
  rintro rfl
  obtain ⟨ls, hls⟩ := exists_lexed s
  rwa [← hls.eq_lexemes]

end Parley.Markup
