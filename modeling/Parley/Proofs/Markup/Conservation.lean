import Mathlib.Data.List.Chain
import Parley.Proofs.Markup.Nesting

/-!
# What is kept of markup

What has been read is compared with its markup as a sequence of texts and of names that open and
close. Such a sequence says how elements are nested, and it does not depend on what the elements
mean.

Main results:

* `Nests.contentMarks_eq` — the texts and the nesting of content are those of its markup;
* `parseContent_accepts_nested` — exactly the well-nested markup can be read, and nothing is lost.
-/

namespace Parley.Template

open Text Markup

variable {registry : Registry} {attributes : List (String × String)} {content : Content}

/-! ## Texts and nesting -/

/-- What is left of markup, or of content, if only its texts and its nesting count. -/
inductive Mark where
  | text (s : List Char)
  | opening (name : String)
  | closing (name : String)
  deriving DecidableEq, Repr

/-- The beginning of an element. One that is named `sr` is short for the first capture as a
request. -/
def openingMarks (name : String) : List Mark :=
  if name = "sr" then [.opening "srai", .opening "star", .closing "star"] else [.opening name]

def closingMarks (name : String) : List Mark :=
  [.closing (if name = "sr" then "srai" else name)]

def lexemeMarks : Lexeme → List Mark
  | .text s => [.text s]
  | .tag t =>
    if t.closing then closingMarks t.name
    else if t.selfClosing then openingMarks t.name ++ closingMarks t.name
    else openingMarks t.name

mutual

/-- The texts and the nesting of a part. -/
def partMarks : Part → List Mark
  | .text s => [.text s.toList]
  | .star segment _ => [.opening (captureName segment), .closing (captureName segment)]
  | .srai content => .opening "srai" :: (contentMarks content ++ [.closing "srai"])
  | .get _ _ => [.opening "get", .closing "get"]
  | .set _ _ content => .opening "set" :: (contentMarks content ++ [.closing "set"])
  | .think content => .opening "think" :: (contentMarks content ++ [.closing "think"])
  | .extension name _ content => .opening name :: (contentMarks content ++ [.closing name])

/-- The texts and the nesting of content. -/
def contentMarks : Content → List Mark
  | [] => []
  | part :: content => partMarks part ++ contentMarks content

end

mutual

/-- The texts in a part, in order. -/
def partText : Part → List Char
  | .text s => s.toList
  | .star _ _ => []
  | .srai content => contentText content
  | .get _ _ => []
  | .set _ _ content => contentText content
  | .think content => contentText content
  | .extension _ _ content => contentText content

/-- The texts in content, in order. -/
def contentText : Content → List Char
  | [] => []
  | part :: content => partText part ++ contentText content

end

/-- The text of a part of markup; tags have none. -/
def lexemeText : Lexeme → List Char
  | .text s => s
  | .tag _ => []

def markText : Mark → List Char
  | .text s => s
  | .opening _ => []
  | .closing _ => []

mutual

theorem partText_eq (part : Part) : partText part = (partMarks part).flatMap markText := by
  cases part with
  | text s => simp [partText, partMarks, markText]
  | star segment n => rfl
  | srai content => simp [partText, partMarks, markText, contentText_eq content]
  | get name scope => rfl
  | set name scope content => simp [partText, partMarks, markText, contentText_eq content]
  | think content => simp [partText, partMarks, markText, contentText_eq content]
  | extension name attributes content =>
    simp [partText, partMarks, markText, contentText_eq content]

theorem contentText_eq (content : Content) :
    contentText content = (contentMarks content).flatMap markText := by
  cases content with
  | nil => rfl
  | cons part content =>
    rw [contentText, contentMarks, List.flatMap_append, partText_eq part, contentText_eq content]

end

theorem flatMap_markText_openingMarks (name : String) :
    (openingMarks name).flatMap markText = [] := by
  unfold openingMarks
  split <;> rfl

theorem lexemeText_eq (l : Lexeme) : lexemeText l = (lexemeMarks l).flatMap markText := by
  cases l with
  | text s => simp [lexemeText, lexemeMarks, markText]
  | tag t =>
    have hclosing : (closingMarks t.name).flatMap markText = [] := rfl
    rw [lexemeText, lexemeMarks]
    split
    · exact hclosing.symm
    · split
      · rw [List.flatMap_append, flatMap_markText_openingMarks, hclosing, List.append_nil]
      · exact (flatMap_markText_openingMarks _).symm

/-! ## Nothing is lost -/

/-- The elements whose content does not count. -/
def leafNames : List String := ["star", "thatstar", "topicstar", "sr", "get"]

/-- Whether a part of markup is the opening tag of such an element. -/
def opensLeaf : Lexeme → Bool
  | .text _ => false
  | .tag t => !t.closing && !t.selfClosing && leafNames.contains t.name

def closes : Lexeme → Bool
  | .text _ => false
  | .tag t => t.closing

/-- Whether no such element encloses anything: a closing tag is next to its opening tag. -/
def LeavesEmpty (ls : List Lexeme) : Prop :=
  ls.IsChain fun l l' => opensLeaf l = true → closes l' = true

instance (ls : List Lexeme) : Decidable (LeavesEmpty ls) :=
  inferInstanceAs (Decidable (List.IsChain _ _))

/-- Whether a part of markup is text or the tag of an element that is built in. -/
def isBuiltIn : Lexeme → Bool
  | .text _ => true
  | .tag t => builtInNames.contains t.name

/-- Whether all elements are built in. -/
def BuiltIn (ls : List Lexeme) : Prop := ∀ l ∈ ls, isBuiltIn l = true

instance (ls : List Lexeme) : Decidable (BuiltIn ls) :=
  inferInstanceAs (Decidable (∀ _ ∈ _, _))

theorem BuiltIn.mem_builtInNames {ls : List Lexeme} (h : BuiltIn ls) {t : Tag}
    (ht : .tag t ∈ ls) : t.name ∈ builtInNames :=
  List.contains_iff_mem.1 (h _ ht)

/-- The part that an element stands for is nested as the element is. -/
theorem Stands.partMarks_eq {name : String} {part : Part}
    (h : Stands registry attributes content name part) (hname : name ∈ builtInNames)
    (hleaf : name ∈ leafNames → content = []) :
    partMarks part = openingMarks name ++ contentMarks content ++ closingMarks name := by
  -- an element without content stands for its two marks, any other for what is between them too
  cases h with
  | @star segment n h =>
    have hcontent : content = [] := hleaf (by cases segment <;> decide)
    cases segment <;> rw [hcontent] <;> rfl
  | sr =>
    rw [hleaf (by decide)]
    rfl
  | srai => simp [partMarks, openingMarks, closingMarks]
  | think => simp [partMarks, openingMarks, closingMarks]
  | get h =>
    rw [hleaf (by decide)]
    rfl
  | set h => simp [partMarks, openingMarks, closingMarks]
  | extension hnot _ _ => exact absurd hname hnot

theorem Nests.closes_eq_false {l : Lexeme} {ls : List Lexeme}
    (h : Nests registry (l :: ls) content) : closes l = false := by
  cases h with
  | text _ => rfl
  | single hopening _ _ _ => exact hopening
  | element hopening _ _ _ _ _ _ => exact hopening

/-- The content of an element whose content does not count is empty. -/
theorem Nests.children_eq_nil {t : Tag} {inside behind : List Lexeme} {children : Content}
    (h : Nests registry inside children) (hopening : t.closing = false)
    (hself : t.selfClosing = false) (hleaves : LeavesEmpty (.tag t :: (inside ++ behind)))
    (hname : t.name ∈ leafNames) : children = [] := by
  cases inside with
  | nil =>
    cases h
    rfl
  | cons l inside =>
    have hleaf : opensLeaf (.tag t) = true := by
      rw [opensLeaf, hopening, hself, List.contains_iff_mem.2 hname]
      rfl
    have hcloses := (List.isChain_cons_cons.1 hleaves).1 hleaf
    rw [h.closes_eq_false] at hcloses
    cases hcloses

/-- The texts and the nesting of content are those of its markup. -/
theorem Nests.contentMarks_eq {ls : List Lexeme} (h : Nests registry ls content)
    (hbuilt : BuiltIn ls) (hleaves : LeavesEmpty ls) :
    contentMarks content = ls.flatMap lexemeMarks := by
  induction h with
  | nil => rfl
  | text _ ih =>
    have hrest := ih (fun t ht => hbuilt t (List.mem_cons_of_mem _ ht)) hleaves.tail
    rw [contentMarks, hrest, partMarks, String.toList_ofList]
    rfl
  | @single t part ls content hopening hself hpart _ ih =>
    have hrest := ih (fun t ht => hbuilt t (List.mem_cons_of_mem _ ht)) hleaves.tail
    rw [contentMarks, hrest,
      hpart.partMarks_eq (hbuilt.mem_builtInNames List.mem_cons_self) fun _ => rfl,
      List.flatMap_cons, lexemeMarks, hopening, hself]
    simp [contentMarks]
  -- the lexemes inside and behind the element are built in and have empty leaves, as all of them
  -- have
  | @element t t' part inside ls children content hopening hself hinside hclosing hname hpart _ ihin
      ih =>
    have hchildren := hinside.children_eq_nil hopening hself hleaves
    have hnested : LeavesEmpty (inside ++ .tag t' :: ls) := hleaves.tail
    have hin := ihin (fun t ht => hbuilt t (by simp [ht])) hnested.left_of_append
    have hrest := ih (fun t ht => hbuilt t (by simp [ht])) hnested.right_of_append.tail
    rw [contentMarks, hrest,
      hpart.partMarks_eq (hbuilt.mem_builtInNames List.mem_cons_self) hchildren, hin,
      List.flatMap_cons, lexemeMarks, hopening, hself, List.flatMap_append, List.flatMap_cons,
      lexemeMarks, hclosing, hname]
    simp

/-- **Exactly the well-nested markup can be read, and nothing of it is lost.** The tags of markup
can be told apart from its texts in one way only. Markup is accepted if and only if, in this order,
every closing tag closes the innermost open element, no element is open at the end, and every
element may stand there. If all elements are built in and those whose content does not count have
none, the texts of what has been read are the markup without its tags, and its nesting is that of
the tags. -/
theorem parseContent_accepts_nested (registry : Registry) (markup : String) :
    (∃! ls, Lexed markup.toList ls) ∧
    ∀ ls, Lexed markup.toList ls →
      ((∃ content, parseContent registry markup = .ok content) ↔
        ∃ content, Nests registry ls content) ∧
      (BuiltIn ls → LeavesEmpty ls → ∀ content, parseContent registry markup = .ok content →
        contentText content = ls.flatMap lexemeText ∧
          contentMarks content = ls.flatMap lexemeMarks) := by
  refine ⟨⟨_, lexed_iff.2 rfl, fun ls hls => hls.eq_lexemes⟩, fun ls hls => ?_⟩
  -- any two ways of lexing are the same, so that what is read does not depend on the one chosen
  have hread : ∀ content,
      parseContent registry markup = .ok content ↔ Nests registry ls content := by
    intro content
    rw [parseContent_eq_ok_iff]
    constructor
    · rintro ⟨ls', hls', hnests⟩
      rwa [hls.eq_lexemes, ← hls'.eq_lexemes]
    · exact fun hnests => ⟨ls, hls, hnests⟩
  refine ⟨exists_congr hread, fun hbuilt hleaves content hcontent => ?_⟩
  have hmarks := ((hread content).1 hcontent).contentMarks_eq hbuilt hleaves
  refine ⟨?_, hmarks⟩
  have htext : lexemeText = fun l => (lexemeMarks l).flatMap markText := funext lexemeText_eq
  rw [contentText_eq, hmarks, htext, List.flatMap_assoc]

/-- Markup in which a bracket is text, and the names of tags are in any case. -/
def moodMarkup : String := "Hi <Set name='mood'><think>a<b</think>ok<star/></SET>!"

/-- Its parts. -/
def moodLexemes : List Lexeme :=
  let tag (closing : Bool) (name part : String) (selfClosing : Bool) : Lexeme :=
    .tag { closing, name, attributePart := part.toList, selfClosing }
  [.text "Hi ".toList, tag false "set" " name='mood'" false, tag false "think" "" false,
    .text "a<b".toList, tag true "think" "" false, .text "ok".toList, tag false "star" "" true,
    tag true "set" "" false, .text "!".toList]

theorem parseContent_accepts_nested_mood :
    Lexed moodMarkup.toList moodLexemes ∧ BuiltIn moodLexemes ∧ LeavesEmpty moodLexemes ∧
      (∃ content, Nests [] moodLexemes content) ∧
      ∃ content, parseContent [] moodMarkup = .ok content ∧
        contentText content = "Hi a<bok!".toList ∧
        contentMarks content =
          [.text "Hi ".toList, .opening "set", .opening "think", .text "a<b".toList,
            .closing "think", .text "ok".toList, .opening "star", .closing "star", .closing "set",
            .text "!".toList] := by
  have hlexed : Lexed moodMarkup.toList moodLexemes := lexed_iff.2 (by decide +kernel)
  have hbuilt : BuiltIn moodLexemes := by decide
  have hleaves : LeavesEmpty moodLexemes := by decide
  obtain ⟨content, hcontent⟩ : ∃ content, parseContent [] moodMarkup = .ok content := by
    have hok : (parseContent [] moodMarkup).isOk = true := by decide +kernel
    cases hread : parseContent [] moodMarkup with
    | ok content => exact ⟨content, rfl⟩
    | error fault =>
      rw [hread] at hok
      cases hok
  obtain ⟨hiff, hkept⟩ := (parseContent_accepts_nested [] moodMarkup).2 _ hlexed
  obtain ⟨htext, hmarks⟩ := hkept hbuilt hleaves content hcontent
  exact ⟨hlexed, hbuilt, hleaves, hiff.1 ⟨content, hcontent⟩, content, hcontent,
    htext.trans (by decide), hmarks.trans (by decide)⟩

end Parley.Template
