import Mathlib.Data.List.Forall2
import Parley.Markup.Tag
import Parley.Proofs.Keys

/-!
# Names in angle brackets

The separators of a path are spelled like tags. In markup a name in angle brackets is a tag wherever
it stands, since tags are looked for from left to right and there is nothing else that it could be a
part of without ending up inside a tag. A word between tags can therefore not be spelled like a
separator, in capital letters or small ones.

Main results:

* `isBareTag_of_equals_separator` — only a name in angle brackets has the key of a separator;
* `Markup.exists_readTag?_name` — a name in angle brackets is a tag;
* `Markup.clean_cutAtTags` — no text between tags holds a tag;
* `Text.infix_of_mem_breakWords` — the words of a text are parts of it.
-/

namespace Parley

open Text Markup

/-! ## The keys of separators -/

namespace Text

/-- Whether a character has become another by lower case as letters of ASCII do. -/
def Lowered (c d : Char) : Prop := c = d ∨ c.isUpper = true ∧ 0x61 ≤ d.toNat

/-- A text whose lower case is of ASCII is of ASCII, apart from signs for kelvins. -/
theorem forall₂_lowered {before s t : List Char} (h : lowerAfter before s = t)
    (ht : ∀ d ∈ t, d.toNat < 0x80 ∧ d ≠ 'k') : List.Forall₂ Lowered s t := by
  induction s generalizing before t with
  | nil =>
    rw [lowerAfter] at h
    rw [← h]
    exact .nil
  | cons c rest ih =>
    obtain ⟨image, himage, hcases⟩ := lowerAfter_cons before c rest
    rw [himage] at h
    subst h
    have hrest := ih rfl fun d hd => ht d (List.mem_append_right _ hd)
    have hfirst := fun d (hd : d ∈ image) => ht d (List.mem_append_left _ hd)
    rcases hcases with rfl | ⟨-, rfl | rfl⟩
    · by_cases hc : c = 'İ'
      · -- the mark is beyond ASCII
        subst hc
        have hmark := (hfirst '\u0307' (List.mem_cons_of_mem _ (List.mem_singleton_self _))).1
        exact absurd hmark (by decide)
      · obtain ⟨d, hd⟩ : ∃ d, lowerChar c = [d] := by
          rw [lowerChar, if_neg (by simpa using hc)]
          exact ⟨_, rfl⟩
        have hmem : d ∈ lowerChar c := hd ▸ List.mem_singleton_self d
        obtain ⟨hascii, hk⟩ := hfirst d hmem
        rw [hd]
        refine .cons ?_ hrest
        rcases eq_or_le_of_mem_lowerChar hmem with heq | hle
        · exact Or.inl heq.symm
        · exact (eq_or_isUpper_of_lowerChar_eq hd hascii hk).imp_right fun hupper => ⟨hupper, hle⟩
    -- a sigma is beyond ASCII, too
    · exact absurd (hfirst 'ς' (List.mem_singleton_self _)).1 (by decide)
    · exact absurd (hfirst 'σ' (List.mem_singleton_self _)).1 (by decide)

theorem Lowered.eq_of_lt {c d : Char} (h : Lowered c d) (hd : d.toNat < 0x61) : c = d := by
  rcases h with rfl | ⟨-, hle⟩
  · rfl
  · omega

theorem Lowered.isAlpha {c d : Char} (h : Lowered c d) (hd : d.isAlpha = true) :
    c.isAlpha = true := by
  rcases h with rfl | ⟨hupper, -⟩
  · exact hd
  · exact (Bool.or_eq_true ..).mpr (Or.inl hupper)

end Text

/-- Whether a text is a name in angle brackets, without anything else. -/
def IsBareTag (s : List Char) : Prop :=
  ∃ name, s = '<' :: (name ++ ['>']) ∧ name ≠ [] ∧ ∀ c ∈ name, c.isAlpha = true

/-- What is the same as a separator is a name in angle brackets. -/
theorem isBareTag_of_equals_separator {cmp : Comparer} {s separator : String}
    (hseparator : separator = Token.thatSeparator ∨ separator = Token.topicSeparator)
    (h : cmp.equals s separator = true) : IsBareTag s.toList := by
  -- the separator is its own key, and its letters are small letters of ASCII
  obtain ⟨letters, hletters, hne, halpha, hascii, hkey⟩ : ∃ letters,
      separator.toList = '<' :: (letters ++ ['>']) ∧ letters ≠ [] ∧
        (letters.all fun d => d.isAlpha) = true ∧
        ((separator.toList.all fun d => d.toNat < 0x80 && d != 'k') = true) ∧
        cmp.key separator = separator := by
    rcases hseparator with rfl | rfl
    · exact ⟨"that".toList, by decide, by decide, by decide, by decide,
        by cases cmp <;> decide +kernel⟩
    · exact ⟨"topic".toList, by decide, by decide, by decide, by decide,
        by cases cmp <;> decide +kernel⟩
  rw [List.all_eq_true] at halpha hascii
  rw [Comparer.equals_iff_key_eq, hkey] at h
  rcases cmp.key_eq_or s with hs | hs
  · rw [← hs, h]
    exact ⟨letters, hletters, hne, halpha⟩
  · have hlower : lowerAfter [] s.toList = separator.toList := by
      rw [← h, hs, lowercase, String.toList_ofList]
    have hlowered := forall₂_lowered hlower fun d hd => by simpa using hascii d hd
    rw [hletters, List.forall₂_cons_right_iff] at hlowered
    obtain ⟨c, rest, hc, hrest, hcons⟩ := hlowered
    have hname := List.forall₂_take_append rest letters ['>'] hrest
    have hlast := List.forall₂_drop_append rest letters ['>'] hrest
    rw [List.forall₂_cons_right_iff] at hlast
    obtain ⟨e, es, he, hes, hdrop⟩ := hlast
    rw [List.forall₂_nil_right_iff] at hes
    obtain rfl := hc.eq_of_lt (by decide)
    obtain rfl := he.eq_of_lt (by decide)
    refine ⟨rest.take letters.length, ?_, ?_, ?_⟩
    · rw [hcons, ← hes, ← hdrop, List.take_append_drop]
    · intro hnil
      have hlength := hname.length_eq
      rw [hnil] at hlength
      exact hne (List.length_eq_zero_iff.1 hlength.symm)
    · intro d hd
      obtain ⟨i, hi, rfl⟩ := List.getElem_of_mem hd
      have hlt : i < letters.length := hname.length_eq ▸ hi
      exact (hname.get hi hlt).isAlpha (halpha _ (List.getElem_mem hlt))

/-! ## Names in angle brackets are tags -/

namespace Markup

/-- A name in front of a closing bracket is a tag, if its opening bracket has been read. -/
theorem exists_readTag?_name {name : List Char} (hne : name ≠ [])
    (halpha : ∀ c ∈ name, c.isAlpha = true) (rest : List Char) :
    ∃ tag, readTag? (name ++ '>' :: rest) = some (tag, rest) := by
  obtain ⟨c, letters, rfl⟩ := List.exists_cons_of_ne_nil hne
  have hc : c.isAlpha = true := halpha c (List.mem_cons_self ..)
  have hletters : ∀ d ∈ letters, isNameChar d = true := by
    intro d hd
    rw [isNameChar, isWordChar_of_isAlpha (halpha d (List.mem_cons_of_mem _ hd))]
    rfl
  have hbracket : isNameChar '>' = false := by decide +kernel
  have hslash : takeSlash (c :: (letters ++ '>' :: rest)) =
      (false, c :: (letters ++ '>' :: rest)) := by
    unfold takeSlash
    split
    · next heq =>
      obtain rfl := (List.cons.inj heq).1
      exact absurd hc (by decide)
    · rfl
  have hinside : (letters ++ '>' :: rest).dropWhile isNameChar = '>' :: rest := by
    rw [List.dropWhile_append_of_pos hletters, List.dropWhile_cons_of_neg (by simp [hbracket])]
  -- a closing bracket is neither a blank nor a slash, so that no attributes follow
  have hblank : isBlank '>' = false := by decide
  have hbehind : skipAttributes ('>' :: rest) = '>' :: rest := by
    have hnone : readAttribute? ('>' :: rest) = none := by
      simp [readAttribute?, skipSome, hblank]
    rw [skipAttributes]
    split
    · rfl
    · next h =>
      rw [hnone] at h
      cases h
  have hclose : ('>' :: rest).dropWhile isBlank = '>' :: rest :=
    List.dropWhile_cons_of_neg (by simp [hblank])
  have hend : takeSlash ('>' :: rest) = (false, '>' :: rest) := rfl
  have hstart : isNameStart c = true := by rw [isNameStart, hc, Bool.true_or]
  rw [List.cons_append, readTag?, hslash]
  dsimp only
  rw [if_pos hstart, hinside, hbehind, hclose, hend]
  exact ⟨_, rfl⟩

/-! ## Between tags there are no tags -/

/-- Whether no opening bracket in a text begins a tag, with what follows the text. -/
def Untagged (text : List Char) : Prop :=
  ∀ inside, '<' :: inside <:+ text → ∃ after, readTag? (inside ++ after) = none

theorem untagged_nil : Untagged [] := by
  intro inside h
  cases List.suffix_nil.1 h

theorem Untagged.cons {c : Char} {text : List Char} (h : Untagged text)
    (hc : c = '<' → ∃ after, readTag? (text ++ after) = none) : Untagged (c :: text) := by
  intro inside hsuffix
  rcases List.suffix_cons_iff.1 hsuffix with heq | hsuffix
  · obtain ⟨rfl, rfl⟩ := List.cons.inj heq
    exact hc rfl
  · exact h inside hsuffix

/-- A text without tags holds no names in angle brackets. -/
theorem Untagged.not_isBareTag {text s : List Char} (h : Untagged text) (hs : s <:+: text) :
    ¬ IsBareTag s := by
  rintro ⟨name, rfl, hne, halpha⟩
  obtain ⟨before, behind, rfl⟩ := hs
  obtain ⟨after, hnone⟩ := h (name ++ '>' :: behind) ⟨before, by simp⟩
  obtain ⟨tag, hsome⟩ := exists_readTag?_name hne halpha (behind ++ after)
  rw [List.append_assoc, List.cons_append, hsome] at hnone
  cases hnone

namespace Pieces

/-- The text in front of the first tag. -/
def first (p : Pieces) : List Char :=
  match p.tagged with
  | [] => p.last
  | (text, _) :: _ => text

/-- Whether no text of the pieces holds a tag. -/
structure Clean (p : Pieces) : Prop where
  tagged : ∀ piece ∈ p.tagged, Untagged piece.1
  last : Untagged p.last

theorem Clean.consChar {c : Char} {p : Pieces} (h : p.Clean)
    (hc : c = '<' → ∃ after, readTag? (p.first ++ after) = none) : (p.consChar c).Clean := by
  obtain ⟨tagged, last⟩ := p
  cases tagged with
  | nil => exact ⟨by simp [Pieces.consChar], h.last.cons hc⟩
  | cons piece more =>
    refine ⟨?_, h.last⟩
    intro other hother
    rcases List.mem_cons.1 hother with rfl | hother
    · exact (h.tagged piece (List.mem_cons_self ..)).cons hc
    · exact h.tagged other (List.mem_cons_of_mem _ hother)

theorem Clean.consTag {p : Pieces} (h : p.Clean) (t : Tag) : (p.consTag t).Clean := by
  refine ⟨?_, h.last⟩
  intro piece hpiece
  rcases List.mem_cons.1 hpiece with rfl | hpiece
  · exact untagged_nil
  · exact h.tagged piece hpiece

theorem first_consChar (c : Char) (p : Pieces) : (p.consChar c).first = c :: p.first := by
  obtain ⟨tagged, last⟩ := p
  cases tagged <;> rfl

end Pieces

theorem first_cutAtTags_prefix (s : List Char) : (cutAtTags s).first <+: s := by
  fun_induction cutAtTags s with
  | case1 => exact List.prefix_rfl
  | case2 c rest hc tag after h ih => exact List.nil_prefix
  | case3 c rest hc h ih =>
    rw [Pieces.first_consChar]
    exact List.cons_prefix_cons.2 ⟨rfl, ih⟩
  | case4 c rest hc ih =>
    rw [Pieces.first_consChar]
    exact List.cons_prefix_cons.2 ⟨rfl, ih⟩

/-- No text between tags holds a tag. -/
theorem clean_cutAtTags (s : List Char) : (cutAtTags s).Clean := by
  fun_induction cutAtTags s with
  | case1 => exact ⟨by simp, untagged_nil⟩
  | case2 c rest hc tag after h ih => exact ih.consTag tag
  | case3 c rest hc h ih =>
    -- what stands up to the next tag is the beginning of what was tried as a tag
    obtain ⟨after, hafter⟩ := first_cutAtTags_prefix rest
    refine ih.consChar fun _ => ⟨after, ?_⟩
    rw [hafter, h]
  | case4 c rest hc ih => exact ih.consChar fun hopen => absurd (by simpa using hopen) hc

end Markup

/-! ## Words are parts of their text -/

namespace Text

theorem infix_of_mem_attach {c : Char} {touches : Bool} {rest w : List Char}
    {ws : List (List Char)} (hws : ∀ v ∈ ws, v <:+: rest)
    (hfirst : ∀ v vs, touches = true → ws = v :: vs → v <+: rest)
    (hw : w ∈ attach c touches ws) : w <:+: c :: rest := by
  have hsingle : [c] <:+: c :: rest := ⟨[], rest, rfl⟩
  cases ws with
  | nil =>
    rw [attach, List.mem_singleton] at hw
    exact hw ▸ hsingle
  | cons v vs =>
    rw [attach] at hw
    split at hw
    · next htouches =>
      rcases List.mem_cons.1 hw with rfl | hw
      · exact (List.cons_prefix_cons.2 ⟨rfl, hfirst v vs htouches rfl⟩).isInfix
      · exact List.infix_cons (hws w (List.mem_cons_of_mem _ hw))
    · rcases List.mem_cons.1 hw with rfl | hw
      · exact hsingle
      · exact List.infix_cons (hws w hw)

/-- The first word of a text that starts inside a word is its beginning. -/
theorem prefix_of_breakWords {s w : List Char} {ws : List (List Char)}
    (hstart : startsInWord s = true) (h : breakWords s = w :: ws) : w <+: s := by
  induction s generalizing w ws with
  | nil => cases hstart
  | cons c rest ih =>
    have hc : isBlank c = false := by simpa [startsInWord] using hstart
    rw [breakWords, if_neg (by simp [hc])] at h
    cases hws : breakWords rest with
    | nil =>
      rw [hws, attach] at h
      rw [← (List.cons.inj h).1]
      exact ⟨rest, rfl⟩
    | cons v vs =>
      rw [hws, attach] at h
      split at h
      · next htouches =>
        rw [← (List.cons.inj h).1]
        exact List.cons_prefix_cons.2 ⟨rfl, ih htouches hws⟩
      · rw [← (List.cons.inj h).1]
        exact ⟨rest, rfl⟩

/-- A word is a part of its text. -/
theorem infix_of_mem_breakWords {s w : List Char} (h : w ∈ breakWords s) : w <:+: s := by
  induction s generalizing w with
  | nil => simp [breakWords] at h
  | cons c rest ih =>
    rw [breakWords] at h
    split at h
    · exact List.infix_cons (ih h)
    · exact infix_of_mem_attach (fun v hv => ih hv)
        (fun v vs htouches hws => prefix_of_breakWords htouches hws) h

end Text

end Parley
