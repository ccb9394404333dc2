import Mathlib.Data.List.Basic
import Parley.Proofs.Folding

/-!
# Title-case letters

Where case is ignored, the key of a text is its lower case, but a text without an upper-case
character is taken for its own lower case. This is right but for the letters of title case, which
are digraphs with a capital in front such as `ǅ` and Greek capitals with a small iota: lower case
changes them, and they are not upper case. They stay in the key of a text that has no upper-case
character, and they are changed in every longer text that has one.

Main results:

* `Text.lowerChar_ne_self_iff` — of the characters that are not upper case, lower case changes
  those of title case and no others;
* `Text.lowercase_unwords` — the lower case of a phrase is put together from that of its words;
* `Comparer.key_eq_lowercase_iff` — which texts have their lower case as their key;
* `Comparer.equals_iff_lowercase_eq` — which texts are equal where case is ignored, and which
  phrases have keys that are put together from the keys of their words.
-/

namespace Parley

open Text

namespace Text

/-! ## What lower case changes -/

/-- The letters of title case. -/
def isTitlecase (c : Char) : Bool := GeneralCategory.titlecaseLetter.has c

/-- The code points of a span. -/
def Span.members (s : Span) : List Nat :=
  List.range' s.first ((s.last - s.first) / s.step + 1) s.step

/-- Every code point of a span is listed. -/
theorem Span.mem_members {s : Span} {n : Nat} (h : s.has n = true) : n ∈ s.members := by
  simp only [Span.has, Bool.and_eq_true, beq_iff_eq, decide_eq_true_eq] at h
  refine List.mem_range'.2 ⟨(n - s.first) / s.step, ?_, ?_⟩
  · exact Nat.lt_succ_of_le (Nat.div_le_div_right (Nat.sub_le_sub_right h.1.2 s.first))
  · rw [Nat.mul_div_cancel' (Nat.dvd_of_mod_eq_zero h.2)]
    omega

/-- The code points of a list that no span has, as far as one pass through both lists finds out. -/
def Spans.missed : List Span → List Nat → List Nat
  | [], codes => codes
  | s :: rest, codes =>
    let behind := codes.dropWhile fun n => Nat.blt n s.first
    codes.takeWhile (fun n => Nat.blt n s.first) ++
      (behind.takeWhile (fun n => Nat.ble n s.last)).filter (fun n => !s.has n) ++
        Spans.missed rest (behind.dropWhile fun n => Nat.ble n s.last)

/-- The pass misses no code point that is in no span. -/
theorem Spans.mem_missed {spans : List Span} {codes : List Nat} {n : Nat} (h : n ∈ codes)
    (hnone : ∀ s ∈ spans, s.has n = false) : n ∈ Spans.missed spans codes := by
  induction spans generalizing codes with
  | nil => exact h
  | cons s rest ih =>
    obtain ⟨hs, hrest⟩ := List.forall_mem_cons.1 hnone
    rw [Spans.missed, List.mem_append, List.mem_append, List.mem_filter]
    rw [← @List.takeWhile_append_dropWhile _ (fun n => Nat.blt n s.first) codes,
      List.mem_append] at h
    -- the code point is in front of the span, between its ends or behind it
    rcases h with h | h
    · exact Or.inl (Or.inl h)
    · rw [← @List.takeWhile_append_dropWhile _ (fun n => Nat.ble n s.last)
        (codes.dropWhile _), List.mem_append] at h
      rcases h with h | h
      · exact Or.inl (Or.inr ⟨h, by rw [hs]; rfl⟩)
      · exact Or.inr (ih h hrest)

/-- The code points that the lower-case map can move. -/
def lowerCodes : List Nat := lowerShifts.flatMap fun s => s.span.members

/-- All of them are of upper case or of title case. -/
theorem missed_lowerCodes :
    Spans.missed GeneralCategory.titlecaseLetterSpans
      (Spans.missed otherUppercaseSpans
        (Spans.missed GeneralCategory.uppercaseLetterSpans lowerCodes)) = [] := by
  decide +kernel

/-- Neighbours in ascending order are enough for the whole list. -/
theorem Spans.Ascending.of_isChain {spans : List Span}
    (h : spans.IsChain fun a b => Nat.ble a.first b.first = true) : Spans.Ascending spans := by
  have htrans : ∀ {a b c : Span}, Nat.ble a.first b.first = true → Nat.ble b.first c.first = true →
      Nat.ble a.first c.first = true := by
    intro a b c hab hbc
    rw [Nat.ble_eq] at *
    exact Nat.le_trans hab hbc
  have : Trans (fun a b : Span => Nat.ble a.first b.first = true)
      (fun a b : Span => Nat.ble a.first b.first = true)
      (fun a b : Span => Nat.ble a.first b.first = true) := ⟨htrans⟩
  exact (List.isChain_iff_pairwise.1 h).imp Nat.le_of_ble_eq_true

/-- The table of upper-case letters is in order. -/
theorem ascending_uppercaseLetterSpans : Spans.Ascending GeneralCategory.uppercaseLetterSpans :=
  .of_isChain (by decide +kernel)

/-- The table of other upper-case characters is in order. -/
theorem ascending_otherUppercaseSpans : Spans.Ascending otherUppercaseSpans := by decide

/-- The table of title-case letters is in order. -/
theorem ascending_titlecaseLetterSpans : Spans.Ascending GeneralCategory.titlecaseLetterSpans := by
  decide

/-- Letters of title case are moved, and are not upper case. -/
theorem moved_of_mem_titlecaseLetterSpans :
    (GeneralCategory.titlecaseLetterSpans.all fun s => s.members.all fun n =>
      !Spans.has GeneralCategory.uppercaseLetterSpans n && !Spans.has otherUppercaseSpans n &&
        Shifts.apply lowerShifts n != n) = true := by
  decide +kernel

/-- What lower case changes is of upper case or of title case. -/
theorem isUppercase_or_isTitlecase_of_lowerChar {c : Char} (h : lowerChar c ≠ [c]) :
    isUppercase c = true ∨ isTitlecase c = true := by
  by_contra hnone
  rw [not_or, Bool.not_eq_true, Bool.not_eq_true] at hnone
  obtain ⟨hupper, htitle⟩ := hnone
  obtain ⟨hletter, hother⟩ := Bool.or_eq_false_iff.1 hupper
  -- the character is in none of the spans
  have hmiss : ∀ {spans : List Span}, Spans.Ascending spans → Spans.has spans c.toNat = false →
      ∀ s ∈ spans, s.has c.toNat = false := by
    intro spans hspans hhas s hs
    rw [Bool.eq_false_iff]
    intro hmem
    rw [(Spans.has_iff hspans c.toNat).2 ⟨s, hs, hmem⟩] at hhas
    cases hhas
  have hmissed : c.toNat ∉ lowerCodes := by
    intro hcode
    have hfirst := Spans.mem_missed hcode (hmiss ascending_uppercaseLetterSpans hletter)
    have hsecond := Spans.mem_missed hfirst (hmiss ascending_otherUppercaseSpans hother)
    have hlast := Spans.mem_missed hsecond (hmiss ascending_titlecaseLetterSpans htitle)
    rw [missed_lowerCodes] at hlast
    exact List.not_mem_nil hlast
  -- so the map leaves it where it is
  by_cases hc : c = 'İ'
  · subst hc
    exact absurd hupper (by decide)
  · rcases Shifts.apply_eq_or lowerShifts c.toNat with hstays | ⟨s, hs, hspan, -⟩
    · rw [lowerChar, if_neg (by simpa using hc), hstays, Char.ofNat_toNat] at h
      exact h rfl
    · exact hmissed (List.mem_flatMap.2 ⟨s, hs, Span.mem_members hspan⟩)

/-- Lower case changes the letters of title case, and none of them is upper case. -/
theorem moved_of_isTitlecase {c : Char} (h : isTitlecase c = true) :
    isUppercase c = false ∧ lowerChar c ≠ [c] := by
  obtain ⟨s, hs, hspan⟩ := (Spans.has_iff ascending_titlecaseLetterSpans c.toNat).1 h
  have hmoved := List.all_eq_true.1 (List.all_eq_true.1 moved_of_mem_titlecaseLetterSpans s hs)
    c.toNat (Span.mem_members hspan)
  simp only [Bool.and_eq_true, Bool.not_eq_true', bne_iff_ne, ne_eq] at hmoved
  obtain ⟨⟨hletter, hother⟩, hne⟩ := hmoved
  have hupper : isUppercase c = false := Bool.or_eq_false_iff.2 ⟨hletter, hother⟩
  refine ⟨hupper, fun hself => hne ?_⟩
  have hc : c ≠ 'İ' := by
    rintro rfl
    exact absurd hupper (by decide)
  exact (toNat_of_mem_lowerChar hc (hself ▸ List.mem_singleton_self c)).symm

/-- Of the characters that are not upper case, lower case changes those of title case and no
others. -/
theorem lowerChar_ne_self_iff {c : Char} (h : isUppercase c = false) :
    lowerChar c ≠ [c] ↔ isTitlecase c = true := by
  constructor
  · intro hne
    rcases isUppercase_or_isTitlecase_of_lowerChar hne with hupper | htitle
    · rw [h] at hupper
      cases hupper
    · exact htitle
  · exact fun htitle => (moved_of_isTitlecase htitle).2

/-- A text is its own lower case if and only if lower case changes none of its characters. -/
theorem lowercase_eq_self_iff (s : String) :
    lowercase s = s ↔ ∀ c ∈ s.toList, lowerChar c = [c] := by
  constructor
  · intro h c hc
    rw [← h, lowercase, String.toList_ofList] at hc
    exact lowerChar_of_mem_lowerAfter hc
  · intro h
    rw [lowercase, lowerAfter_eq_self h, String.ofList_toList]

/-! ## Lower case of phrases -/

/-- No blank is the image of something else. -/
theorem target_beside_blankSpans :
    (lowerShifts.all fun s => blankSpans.all fun b =>
      Nat.blt b.last s.target || Nat.blt (s.target + (s.span.last - s.span.first)) b.first) =
        true := by
  decide

/-- The table of blanks is in order. -/
theorem ascending_blankSpans : Spans.Ascending blankSpans := by decide

/-- No character becomes a blank in lower case. -/
theorem isBlank_of_mem_lowerChar {c d : Char} (hd : d ∈ lowerChar c) (h : isBlank d = true) :
    isBlank c = true := by
  by_cases hc : c = 'İ'
  · subst hc
    have hchars : lowerChar 'İ' = ['i', '\u0307'] := rfl
    rw [hchars, List.mem_cons, List.mem_singleton] at hd
    rcases hd with rfl | rfl <;> exact absurd h (by decide)
  · have hnat := toNat_of_mem_lowerChar hc hd
    rcases Shifts.apply_eq_or lowerShifts c.toNat with hstays | ⟨s, hs, hspan, himage⟩
    · rwa [Char.toNat_inj.1 (hnat.trans hstays)] at h
    · -- the image would be both among the blanks and beside them
      obtain ⟨b, hb, hmem⟩ := (Spans.has_iff ascending_blankSpans d.toNat).1 h
      have hbeside := List.all_eq_true.1 (List.all_eq_true.1 target_beside_blankSpans s hs) b hb
      have hoffset := Span.sub_le_of_has hspan
      simp only [Span.has, Bool.and_eq_true, Bool.or_eq_true, decide_eq_true_eq, beq_iff_eq,
        Nat.blt_eq] at hmem hbeside
      omega

/-- A text without blanks has none in lower case. -/
theorem not_isBlank_of_mem_lowerAfter {s : List Char} (h : ∀ c ∈ s, isBlank c = false)
    (before : List Char) : ∀ d ∈ lowerAfter before s, isBlank d = false := by
  induction s generalizing before with
  | nil => exact fun d hd => absurd hd List.not_mem_nil
  | cons c rest ih =>
    obtain ⟨hc, hrest⟩ := List.forall_mem_cons.1 h
    obtain ⟨image, himage, hcases⟩ := lowerAfter_cons before c rest
    intro d hd
    rw [himage, List.mem_append] at hd
    rcases hd with hd | hd
    · rcases hcases with rfl | ⟨-, rfl | rfl⟩
      · rw [Bool.eq_false_iff]
        intro hblank
        rw [isBlank_of_mem_lowerChar hd hblank] at hc
        cases hc
      · obtain rfl := List.mem_singleton.1 hd
        decide
      · obtain rfl := List.mem_singleton.1 hd
        decide
    · exact ih hrest (c :: before) d hd

/-- The lower case of a word is a word. -/
theorem IsWord.lowercase {w : String} (h : IsWord w) : IsWord (lowercase w) := by
  have hchars : (Text.lowercase w).toList = lowerAfter [] w.toList := String.toList_ofList
  rw [IsWord, hchars]
  refine ⟨fun hnil => h.1 ?_, not_isBlank_of_mem_lowerAfter h.2 []⟩
  have hlength := length_lowerAfter [] w.toList
  rw [hnil] at hlength
  exact List.length_eq_zero_iff.1 (Nat.le_zero.1 hlength)

/-- At a space, a text can be taken apart before it is put into lower case: the case of what is
behind the space says nothing about the end of what is in front of it. -/
theorem lowerAfter_append_space (before s t : List Char) :
    lowerAfter before (s ++ ' ' :: t) = lowerAfter before s ++ ' ' :: lowerAfter [] t := by
  have hignorable : isCaseIgnorable ' ' = false := by decide
  have hcased : isCased ' ' = false := by decide
  induction s generalizing before with
  | nil =>
    have hspace : lowerChar ' ' = [' '] := by decide
    have hafter := lowerAfter_append_caseless hignorable hcased [] before t
    rw [List.nil_append] at hafter
    show lowerChar ' ' ++ lowerAfter (' ' :: before) t = ' ' :: lowerAfter [] t
    rw [hspace, hafter]
    rfl
  | cons c s ih =>
    rw [List.cons_append, lowerAfter, ih, startsCased_append_caseless hignorable hcased, lowerAfter,
      List.append_assoc]

/-- Words are put in lower case one by one, as the space between them hides the one from the other.
-/
theorem lowerAfter_joinWords (ws : List (List Char)) :
    lowerAfter [] (joinWords ws) = joinWords (ws.map (lowerAfter [])) := by
  induction ws with
  | nil => rfl
  | cons w ws ih =>
    cases ws with
    | nil => rfl
    | cons v ws => rw [joinWords, lowerAfter_append_space, ih]; rfl

/-- The lower case of a phrase is put together from that of its words. -/
theorem lowercase_unwords (ws : List String) :
    lowercase (unwords ws) = unwords (ws.map lowercase) := by
  rw [lowercase, unwords, String.toList_ofList, lowerAfter_joinWords, unwords, List.map_map,
    List.map_map]
  congr 2
  refine List.map_congr_left fun w _ => ?_
  rw [Function.comp_apply, Function.comp_apply, lowercase, String.toList_ofList]

/-- Words that are joined alike are the same. -/
theorem unwords_inj {ws vs : List String} (hws : ∀ w ∈ ws, IsWord w) (hvs : ∀ v ∈ vs, IsWord v)
    (h : unwords ws = unwords vs) : ws = vs := by
  rw [← words_unwords hws, h, words_unwords hvs]

/-- A property of characters that the space has not is one of the characters of the words. -/
theorem exists_mem_unwords_iff {p : Char → Prop} (hspace : ¬p ' ') (ws : List String) :
    (∃ c ∈ (unwords ws).toList, p c) ↔ ∃ w ∈ ws, ∃ c ∈ w.toList, p c := by
  have hjoin : ∀ vs : List (List Char),
      (∃ c ∈ joinWords vs, p c) ↔ ∃ v ∈ vs, ∃ c ∈ v, p c := by
    intro vs
    induction vs with
    | nil => simp [joinWords]
    | cons v vs ih =>
      cases vs with
      | nil => simp [joinWords]
      | cons u vs =>
        rw [joinWords]
        simp only [List.mem_append, List.mem_cons, or_and_right, exists_or, exists_eq_left, hspace,
          false_or] at ih ⊢
        rw [ih]
  rw [unwords, String.toList_ofList, hjoin]
  simp only [List.mem_map, exists_exists_and_eq_and]

end Text

/-! ## Keys -/

namespace Comparer

/-- Whether a text is taken for its own lower case and is not: it has a letter of title case, and
no upper-case character. -/
def Overlooks (s : String) : Prop :=
  (∃ c ∈ s.toList, isTitlecase c = true) ∧ ¬∃ c ∈ s.toList, isUppercase c = true

instance (s : String) : Decidable (Overlooks s) :=
  decidable_of_iff (s.toList.any isTitlecase = true ∧ ¬s.toList.any isUppercase = true) <| by
    rw [Overlooks, List.any_eq_true, List.any_eq_true]

/-- A text with an upper-case character is compared in lower case. -/
theorem key_of_isUppercase {s : String} (h : ∃ c ∈ s.toList, isUppercase c = true) :
    ignoreCase.key s = lowercase s :=
  if_pos (List.any_eq_true.2 h)

/-- A text without an upper-case character is compared as it is. -/
theorem key_of_not_isUppercase {s : String} (h : ¬∃ c ∈ s.toList, isUppercase c = true) :
    ignoreCase.key s = s :=
  if_neg fun hany => h (List.any_eq_true.1 hany)

/-- The key of a text is its lower case unless a letter of title case is overlooked. -/
theorem key_eq_lowercase_iff (s : String) :
    ignoreCase.key s = lowercase s ↔ ¬Overlooks s := by
  by_cases hupper : ∃ c ∈ s.toList, isUppercase c = true
  · exact iff_of_true (key_of_isUppercase hupper) fun hover => hover.2 hupper
  · rw [key_of_not_isUppercase hupper, eq_comm, lowercase_eq_self_iff]
    constructor
    · rintro hstays ⟨⟨c, hc, htitle⟩, -⟩
      exact (moved_of_isTitlecase htitle).2 (hstays c hc)
    · intro hover c hc
      by_contra hmoved
      rcases isUppercase_or_isTitlecase_of_lowerChar hmoved with h | h
      · exact hupper ⟨c, hc, h⟩
      · exact hover ⟨⟨c, hc, h⟩, hupper⟩

/-- A letter of title case that is overlooked is in no lower case. -/
theorem Overlooks.ne_lowercase {s : String} (h : Overlooks s) (t : String) : s ≠ lowercase t := by
  rintro rfl
  obtain ⟨⟨c, hc, htitle⟩, -⟩ := h
  rw [lowercase, String.toList_ofList] at hc
  exact (moved_of_isTitlecase htitle).2 (lowerChar_of_mem_lowerAfter hc)

/-- A text that is overlooked equals itself only, and texts that are not are equal if and only if
their lower cases are. -/
theorem equals_ignoreCase_iff (a b : String) :
    ignoreCase.equals a b = true ↔
      a = b ∨ ¬Overlooks a ∧ ¬Overlooks b ∧ lowercase a = lowercase b := by
  rw [equals_iff_key_eq]
  by_cases ha : Overlooks a
  · rw [key_of_not_isUppercase ha.2]
    by_cases hb : Overlooks b
    · rw [key_of_not_isUppercase hb.2]
      simp [ha]
    · rw [(key_eq_lowercase_iff b).2 hb]
      -- a letter of title case is in no text of lower case
      refine iff_of_false (ha.ne_lowercase b) ?_
      rintro (rfl | ⟨hnot, -⟩)
      · exact hb ha
      · exact hnot ha
  · rw [(key_eq_lowercase_iff a).2 ha]
    by_cases hb : Overlooks b
    · rw [key_of_not_isUppercase hb.2]
      refine iff_of_false (fun h => hb.ne_lowercase a h.symm) ?_
      rintro (rfl | ⟨-, hnot, -⟩)
      · exact ha hb
      · exact hnot hb
    · rw [(key_eq_lowercase_iff b).2 hb]
      constructor
      · exact fun h => Or.inr ⟨ha, hb, h⟩
      · rintro (rfl | ⟨-, -, h⟩)
        · rfl
        · exact h

/-- The key of a phrase is put together from the keys of its words if and only if nothing in it is
upper case or no word is overlooked. -/
theorem key_unwords_iff {ws : List String} (h : ∀ w ∈ ws, IsWord w) :
    ignoreCase.key (unwords ws) = unwords (ws.map ignoreCase.key) ↔
      (¬∃ w ∈ ws, ∃ c ∈ w.toList, isUppercase c = true) ∨ ∀ w ∈ ws, ¬Overlooks w := by
  have hphrase := exists_mem_unwords_iff (p := fun c => isUppercase c = true) (by decide) ws
  by_cases hupper : ∃ w ∈ ws, ∃ c ∈ w.toList, isUppercase c = true
  · rw [key_of_isUppercase (hphrase.2 hupper), lowercase_unwords]
    simp only [hupper, not_true_eq_false, false_or]
    constructor
    · -- two ways to join words: their keys and their lower cases, which are words too
      intro heq w hw
      rw [← key_eq_lowercase_iff]
      have hkeys : ∀ v ∈ ws.map ignoreCase.key, IsWord v := by
        intro v hv
        obtain ⟨u, hu, rfl⟩ := List.mem_map.1 hv
        rcases ignoreCase.key_eq_or u with hkey | hkey
        · exact hkey.symm ▸ h u hu
        · exact hkey.symm ▸ (h u hu).lowercase
      have hlower : ∀ v ∈ ws.map lowercase, IsWord v := by
        intro v hv
        obtain ⟨u, hu, rfl⟩ := List.mem_map.1 hv
        exact (h u hu).lowercase
      exact (List.map_inj_left.1 (unwords_inj hlower hkeys heq) w hw).symm
    · intro hnone
      rw [List.map_congr_left fun w hw => (key_eq_lowercase_iff w).2 (hnone w hw)]
  -- without an upper-case character no word is changed
  · have hkeys : ws.map ignoreCase.key = ws := by
      refine List.map_congr_left (fun w hw => ?_) |>.trans (List.map_id' ws)
      exact key_of_not_isUppercase fun hc => hupper ⟨w, hw, hc⟩
    rw [key_of_not_isUppercase fun hc => hupper (hphrase.1 hc), hkeys]
    exact iff_of_true rfl (Or.inl hupper)

/-- The key of a text is its lower case unless a letter of title case is overlooked. So texts are
equal if and only if their lower cases are, unless one of them is overlooked and they differ; and
each word of a phrase is in the key of the phrase as its own key, unless an upper-case character
brings about the lower case of a word that is overlooked alone. -/
theorem equals_iff_lowercase_eq (a b phrase : String) :
    (ignoreCase.key a = lowercase a ↔ ¬Overlooks a) ∧
      (ignoreCase.equals a b = true ↔
        a = b ∨ ¬Overlooks a ∧ ¬Overlooks b ∧ lowercase a = lowercase b) ∧
      (ignoreCase.key (unwords (words phrase)) = unwords ((words phrase).map ignoreCase.key) ↔
        (¬∃ w ∈ words phrase, ∃ c ∈ w.toList, isUppercase c = true) ∨
          ∀ w ∈ words phrase, ¬Overlooks w) :=
  ⟨key_eq_lowercase_iff a, equals_ignoreCase_iff a b,
    key_unwords_iff fun _ hw => isWord_of_mem_words hw⟩

/-- A digraph in title case and the same one in lower case are different texts, though their lower
cases are the same; in a longer text with an upper-case letter it is found under the other one. -/
theorem digraph_left_in_place :
    lowercase "ǅ" = lowercase "ǆ" ∧ ignoreCase.equals "ǅ" "ǆ" = false ∧
      ignoreCase.key "ǅ" = "ǅ" ∧ lowercase "ǅ" = "ǆ" ∧
      ignoreCase.key (unwords ["ǅ", "A"]) = unwords ["ǆ", ignoreCase.key "A"] := by
  decide

/-- A final sigma and signs with a lower case of two characters are no exceptions. -/
example : ignoreCase.equals "ΟΔΥΣΣΕΥΣ İ" "οδυσσευς i\u0307" = true := by
  decide

end Comparer

end Parley
