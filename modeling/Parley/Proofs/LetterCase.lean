import Mathlib.Data.List.Forall2
import Parley.Proofs.Keys

/-!
# The case of ASCII letters

Two texts in ASCII that differ in the case of letters only have the same key where case is ignored.
Their words differ in the same way, one by one, and so do phrases that are put together from such
words; no set that ignores case tells the phrases apart.

Outside ASCII this fails. A text without a capital letter is its own key even if lower case would
change it, as it does a title-case letter; one capital letter more, and the key is the lower case.

Main results:

* `Comparer.key_of_isAscii` — the key of a text in ASCII is its lower case;
* `Text.Recased.words`, `Text.Recased.unwords` — taking words apart and putting them together keeps
  to texts that differ in case only;
* `PhraseSet.contains_recased` — a set contains both of two such phrases or none.
-/

namespace Parley

open Text

namespace Text

/-! ## The case of ASCII letters -/

/-- Whether all characters of a text are ASCII. -/
def IsAscii (s : String) : Prop :=
  ∀ c ∈ s.toList, c.toNat < 0x80

/-- Whether two texts differ in the case of ASCII letters at most. -/
def SameLetters (s t : String) : Prop :=
  asciiLowercase s = asciiLowercase t

/-- Whether two texts are ASCII and differ in the case of letters at most. -/
structure Recased (s t : String) : Prop where
  ascii_left : IsAscii s
  ascii_right : IsAscii t
  same : SameLetters s t

instance (s : String) : Decidable (IsAscii s) :=
  decidable_of_iff (s.toList.all fun c => c.toNat < 0x80)
    (by simp only [IsAscii, List.all_eq_true, decide_eq_true_eq])

instance (s t : String) : Decidable (SameLetters s t) :=
  inferInstanceAs (Decidable (asciiLowercase s = asciiLowercase t))

instance (s t : String) : Decidable (Recased s t) :=
  decidable_of_iff (IsAscii s ∧ IsAscii t ∧ SameLetters s t)
    ⟨fun ⟨hs, ht, same⟩ => ⟨hs, ht, same⟩, fun ⟨hs, ht, same⟩ => ⟨hs, ht, same⟩⟩

/-! A property of the characters of ASCII is checked for each of their code points. -/

/-- What holds of the code points below 128 holds of the characters of ASCII. -/
theorem of_forall_ascii {p : Char → Prop} (h : ∀ n < 0x80, p (Char.ofNat n)) {c : Char}
    (hc : c.toNat < 0x80) : p c := by
  have hcode := h c.toNat hc
  rwa [Char.ofNat_toNat] at hcode

/-- Only letters of ASCII are put in lower case. -/
theorem toLower_eq_self_of_le {c : Char} (h : 0x80 ≤ c.toNat) : c.toLower = c := by
  unfold Char.toLower
  split
  · next hupper =>
    have hlast : c.toNat ≤ 'Z'.toNat := hupper.2
    exact absurd (Nat.le_trans h hlast) (by decide)
  · rfl

/-- What holds of each character of ASCII as of its lower case holds so of every character. -/
theorem apply_toLower {p : Char → Bool}
    (h : ∀ n < 0x80, p (Char.ofNat n).toLower = p (Char.ofNat n)) (c : Char) :
    p c.toLower = p c := by
  by_cases hc : c.toNat < 0x80
  · exact of_forall_ascii (p := fun c => p c.toLower = p c) h hc
  · rw [toLower_eq_self_of_le (by omega)]

/-- Letters are no blanks in either case. -/
theorem isBlank_toLower (c : Char) : isBlank c.toLower = isBlank c :=
  apply_toLower (by decide +kernel) c

/-- Letters are no digits in either case. -/
theorem isNumeric_toLower (c : Char) : isNumeric c.toLower = isNumeric c :=
  apply_toLower (by decide +kernel) c

/-- In ASCII, the lower case of Unicode is that of each character. -/
theorem lowerChar_of_ascii {c : Char} (hc : c.toNat < 0x80) : lowerChar c = [c.toLower] :=
  of_forall_ascii (p := fun c => lowerChar c = [c.toLower]) (by decide +kernel) hc

/-- Only capital letters of ASCII have another lower case. -/
theorem toLower_eq_self_of_not_isUppercase {c : Char} (hc : c.toNat < 0x80) :
    isUppercase c = false → c.toLower = c :=
  of_forall_ascii (p := fun c => isUppercase c = false → c.toLower = c) (by decide +kernel) hc

/-- An ASCII text is put in lower case character by character, as there is no sigma in it. -/
theorem lowerAfter_of_ascii {s : List Char} (h : ∀ c ∈ s, c.toNat < 0x80) (before : List Char) :
    lowerAfter before s = s.map Char.toLower := by
  induction s generalizing before with
  | nil => rfl
  | cons c rest ih =>
    rw [List.forall_mem_cons] at h
    -- the capital sigma is the only character whose lower case depends on its neighbours
    have hsigma : c ≠ 'Σ' := by
      rintro rfl
      exact absurd h.1 (by decide)
    rw [lowerAfter, if_neg (by simpa using hsigma), lowerChar_of_ascii h.1, ih h.2]
    rfl

end Text

/-- **The key of a text in ASCII is its lower case,** where case is ignored. -/
theorem Comparer.key_of_isAscii {s : String} (h : IsAscii s) :
    Comparer.ignoreCase.key s = asciiLowercase s := by
  rw [key]
  split
  · rw [lowercase, lowerAfter_of_ascii h, asciiLowercase]
  · next hupper =>
    -- a text without a capital letter is its own lower case
    have hstays : ∀ c ∈ s.toList, c.toLower = c := by
      intro c hc
      refine toLower_eq_self_of_not_isUppercase (h c hc) ?_
      exact Bool.eq_false_iff.2 fun hc' => hupper (List.any_eq_true.2 ⟨c, hc, hc'⟩)
    rw [asciiLowercase, List.map_congr_left hstays, List.map_id', String.ofList_toList]

/-- Outside ASCII, texts that differ in the case of one letter can have different keys. -/
example : Comparer.ignoreCase.equals "ǅa" "ǅA" = false := by
  decide +kernel

/-! ## Words and phrases -/

namespace Text

/-- Words begin at the same places. -/
theorem startsInWord_map_toLower (s : List Char) :
    startsInWord (s.map Char.toLower) = startsInWord s := by
  cases s with
  | nil => rfl
  | cons c rest => rw [List.map_cons, startsInWord, startsInWord, isBlank_toLower]

/-- To attach a character commutes with a change of all characters. -/
theorem attach_map (f : Char → Char) (c : Char) (touches : Bool) (ws : List (List Char)) :
    attach (f c) touches (ws.map (List.map f)) = (attach c touches ws).map (List.map f) := by
  cases ws with
  | nil => rfl
  | cons w ws => cases touches <;> rfl

/-- A text in lower case has the words of the text in lower case. -/
theorem breakWords_map_toLower (s : List Char) :
    breakWords (s.map Char.toLower) = (breakWords s).map (List.map Char.toLower) := by
  induction s with
  | nil => rfl
  | cons c rest ih =>
    rw [List.map_cons, breakWords, breakWords, isBlank_toLower, ih, startsInWord_map_toLower,
      attach_map]
    split <;> rfl

/-- Words are joined by spaces, which have no case. -/
theorem joinWords_map_toLower (ws : List (List Char)) :
    joinWords (ws.map (List.map Char.toLower)) = (joinWords ws).map Char.toLower := by
  induction ws with
  | nil => rfl
  | cons w ws ih =>
    cases ws with
    | nil => rfl
    | cons v vs =>
      rw [List.map_cons, List.map_cons, joinWords, ← List.map_cons, ih, joinWords, List.map_append,
        List.map_cons]
      rfl

/-- The words of a lower case are those of the text in lower case. -/
theorem words_asciiLowercase (s : String) :
    words (asciiLowercase s) = (words s).map asciiLowercase := by
  rw [words, words, asciiLowercase, String.toList_ofList, breakWords_map_toLower, List.map_map,
    List.map_map]
  refine List.map_congr_left fun w _ => ?_
  rw [Function.comp_apply, Function.comp_apply, asciiLowercase, String.toList_ofList]

/-- Words in lower case, joined, are the lower case of the words joined. -/
theorem unwords_map_asciiLowercase (ws : List String) :
    unwords (ws.map asciiLowercase) = asciiLowercase (unwords ws) := by
  rw [unwords, unwords, asciiLowercase, String.toList_ofList, ← joinWords_map_toLower, List.map_map,
    List.map_map]
  congr 2
  refine List.map_congr_left fun w _ => ?_
  rw [Function.comp_apply, Function.comp_apply, asciiLowercase, String.toList_ofList]

/-- The words of an ASCII text are ASCII. -/
theorem IsAscii.of_mem_words {s w : String} (h : IsAscii s) (hw : w ∈ words s) : IsAscii w := by
  obtain ⟨v, hv, rfl⟩ := List.mem_map.1 hw
  intro c hc
  rw [String.toList_ofList] at hc
  have hmem : c ∈ (breakWords s.toList).flatten := List.mem_flatten.2 ⟨v, hv, hc⟩
  rw [flatten_breakWords] at hmem
  exact h c (List.mem_of_mem_filter hmem)

/-- Words that are ASCII are joined to an ASCII text, as the space between them is ASCII. -/
theorem ascii_of_mem_joinWords {ws : List (List Char)} (h : ∀ w ∈ ws, ∀ c ∈ w, c.toNat < 0x80) :
    ∀ c ∈ joinWords ws, c.toNat < 0x80 := by
  induction ws with
  | nil => exact fun c hc => absurd hc List.not_mem_nil
  | cons w ws ih =>
    rw [List.forall_mem_cons] at h
    cases ws with
    | nil => exact h.1
    | cons v vs =>
      rw [joinWords, List.forall_mem_append, List.forall_mem_cons]
      exact ⟨h.1, by decide, ih h.2⟩

/-- The same as texts. -/
theorem isAscii_unwords {ws : List String} (h : ∀ w ∈ ws, IsAscii w) : IsAscii (unwords ws) := by
  rw [IsAscii, unwords, String.toList_ofList]
  exact ascii_of_mem_joinWords (List.forall_mem_map.2 h)

/-- Words are recased one by one exactly if they are the same in lower case, and all ASCII. -/
theorem forall₂_recased_iff {ws vs : List String} :
    List.Forall₂ Recased ws vs ↔
      (∀ w ∈ ws, IsAscii w) ∧ (∀ v ∈ vs, IsAscii v) ∧
        ws.map asciiLowercase = vs.map asciiLowercase := by
  induction ws generalizing vs with
  | nil => cases vs <;> simp
  | cons w ws ih =>
    cases vs with
    | nil => simp
    | cons v vs =>
      rw [List.forall₂_cons, ih, List.forall_mem_cons, List.forall_mem_cons, List.map_cons,
        List.map_cons, List.cons.injEq]
      constructor
      · rintro ⟨⟨hw, hv, same⟩, hws, hvs, hmap⟩
        exact ⟨⟨hw, hws⟩, ⟨hv, hvs⟩, same, hmap⟩
      · rintro ⟨⟨hw, hws⟩, ⟨hv, hvs⟩, same, hmap⟩
        exact ⟨⟨hw, hv, same⟩, hws, hvs, hmap⟩

/-- Recased texts have recased words. -/
theorem Recased.words {s t : String} (h : Recased s t) :
    List.Forall₂ Recased (words s) (words t) := by
  refine forall₂_recased_iff.2 ⟨fun _ => h.ascii_left.of_mem_words,
    fun _ => h.ascii_right.of_mem_words, ?_⟩
  rw [← words_asciiLowercase, h.same, words_asciiLowercase]

/-- Recased words make recased texts. -/
theorem Recased.unwords {ws vs : List String} (h : List.Forall₂ Recased ws vs) :
    Recased (unwords ws) (unwords vs) := by
  obtain ⟨hws, hvs, hmap⟩ := forall₂_recased_iff.1 h
  refine ⟨isAscii_unwords hws, isAscii_unwords hvs, ?_⟩
  rw [SameLetters, ← unwords_map_asciiLowercase, hmap, unwords_map_asciiLowercase]

/-- In lower case, the texts are equal character by character. -/
theorem SameLetters.map_toLower {s t : String} (h : SameLetters s t) :
    s.toList.map Char.toLower = t.toList.map Char.toLower :=
  String.ofList_injective h

/-- A test that does not look at the case holds of both or of neither. -/
theorem SameLetters.all_eq {s t : String} (h : SameLetters s t) {p : Char → Bool}
    (hp : ∀ c, p c.toLower = p c) : s.toList.all p = t.toList.all p := by
  have hcomp : p ∘ Char.toLower = p := funext hp
  rw [← hcomp, ← List.all_map, h.map_toLower, List.all_map]

/-- Both are empty or neither is. -/
theorem SameLetters.isEmpty_eq {s t : String} (h : SameLetters s t) :
    s.toList.isEmpty = t.toList.isEmpty := by
  rw [← List.isEmpty_map (f := Char.toLower), h.map_toLower, List.isEmpty_map]

/-- Recased texts have the same key where case is ignored. -/
theorem Recased.key_eq {s t : String} (h : Recased s t) :
    Comparer.ignoreCase.key s = Comparer.ignoreCase.key t := by
  rw [Comparer.key_of_isAscii h.ascii_left, Comparer.key_of_isAscii h.ascii_right, h.same]

/-- The preferred forms of recased words have the same key. -/
theorem Recased.key_dollar_eq {s t : String} (h : Recased s t) :
    Comparer.ignoreCase.key ("$" ++ s) = Comparer.ignoreCase.key ("$" ++ t) := by
  rw [Comparer.key_dollar, Comparer.key_dollar, h.key_eq]

end Text

/-- No set that ignores case tells recased phrases apart. -/
theorem PhraseSet.contains_recased {set : PhraseSet} (hset : set.BuiltUnder .ignoreCase)
    {s t : String} (h : Recased s t) : set.contains s = set.contains t := by
  cases hset with
  | ofPhrases phrases => rw [ofPhrases, contains, contains, h.key_eq]
  | number => rw [contains, contains, h.same.isEmpty_eq, h.same.all_eq isNumeric_toLower]
  | word =>
    rw [contains, contains, h.same.isEmpty_eq, h.same.all_eq]
    intro c
    rw [isBlank_toLower]

end Parley
