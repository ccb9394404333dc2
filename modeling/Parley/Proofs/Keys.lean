import Parley.PhraseSet
import Parley.Token

/-!
# Keys of symbols and of phrases

A search looks words up by their keys, and it looks ahead in a phrase only as far as the longest
phrase of a set. Both are sound because a key never turns one thing into another that matters:

* the images of lower case are letters or marks, so the symbols below the small letters are images
  of themselves only;
* lower case neither makes nor removes a space, so a phrase and its key have equally many words.

Main results:

* `Comparer.key_eq_symbol_iff` — only its symbol has the key of a wildcard;
* `Comparer.head?_key` — a dollar sign in front of a word is in front of its key;
* `Comparer.key_dollar` — behind the dollar sign, the key is that of the word;
* `length_le_of_key_unwords_eq` — phrases with one key have equally many words;
* `PhraseSet.length_le_maxWords` — what a set contains has no more words than its bound.
-/

namespace Parley

open Text

/-! ## Lower case of single characters -/

namespace Text

/-- What shifts do to a code point is nothing, or it is moved with one of the spans. -/
theorem Shifts.apply_eq_or (shifts : List Shift) (n : Nat) :
    Shifts.apply shifts n = n ∨
      ∃ s ∈ shifts, s.span.has n = true ∧
        Shifts.apply shifts n = s.target + (n - s.span.first) := by
  induction shifts with
  | nil => exact Or.inl rfl
  | cons s rest ih =>
    rw [Shifts.apply]
    split
    · exact Or.inl rfl
    · split
      · next h => exact Or.inr ⟨s, List.mem_cons_self .., h, rfl⟩
      · rcases ih with h | ⟨t, ht, h⟩
        · exact Or.inl h
        · exact Or.inr ⟨t, List.mem_cons_of_mem _ ht, h⟩

/-- A member of a span is no further from its start than its end. -/
theorem Span.sub_le_of_has {s : Span} {n : Nat} (h : s.has n = true) :
    s.first ≤ n ∧ n - s.first ≤ s.last - s.first := by
  simp only [Span.has, Bool.and_eq_true, decide_eq_true_eq] at h
  omega

/-- The lower-case map moves code points to characters from the small letters on. -/
theorem target_of_mem_lowerShifts :
    ∀ s ∈ lowerShifts, 0x61 ≤ s.target ∧
      (s.target + (s.span.last - s.span.first) < 0xD800 ∨
        0xDFFF < s.target ∧ s.target + (s.span.last - s.span.first) < 0x110000) := by
  decide +kernel

/-- Only two of the shifts lead to ASCII: the one of its own capital letters, and the one of the
sign for kelvins. -/
theorem mem_lowerShifts_of_target_lt :
    ∀ s ∈ lowerShifts, s.target < 0x80 →
      s = ⟨⟨0x41, 0x5A, 1⟩, 0x61⟩ ∨ s = ⟨⟨0x212A, 0x212A, 1⟩, 0x6B⟩ := by
  decide +kernel

/-- But for the dotted capital i, lower case is what the map says. -/
theorem toNat_of_mem_lowerChar {c d : Char} (hc : c ≠ 'İ') (h : d ∈ lowerChar c) :
    d.toNat = Shifts.apply lowerShifts c.toNat := by
  rw [lowerChar, if_neg (by simpa using hc), List.mem_singleton] at h
  rcases Shifts.apply_eq_or lowerShifts c.toNat with heq | ⟨s, hs, hspan, himage⟩
  · rw [h, heq, Char.ofNat_toNat]
  · obtain ⟨htarget, hvalid⟩ := target_of_mem_lowerShifts s hs
    have hoffset := Span.sub_le_of_has hspan
    -- the image is a code point of a character, so that nothing is lost on the way back
    have hchar : (Shifts.apply lowerShifts c.toNat).isValidChar := by
      rcases hvalid with hv | ⟨hv, hv'⟩
      · exact Or.inl (by omega)
      · exact Or.inr ⟨by omega, by omega⟩
    rw [h, Char.ofNat, dif_pos hchar]
    rfl

/-- A character of a lower case is the character itself, or it is not below the small letters. -/
theorem eq_or_le_of_mem_lowerChar {c d : Char} (h : d ∈ lowerChar c) : d = c ∨ 0x61 ≤ d.toNat := by
  by_cases hc : c = 'İ'
  · -- the dotted capital i becomes a small i with a mark
    subst hc
    right
    have hchars : lowerChar 'İ' = ['i', '\u0307'] := rfl
    rw [hchars, List.mem_cons, List.mem_singleton] at h
    rcases h with rfl | rfl <;> decide
  · have hnat := toNat_of_mem_lowerChar hc h
    rcases Shifts.apply_eq_or lowerShifts c.toNat with heq | ⟨s, hs, hspan, himage⟩
    · left
      rw [← Char.toNat_inj, hnat, heq]
    · right
      have htarget := (target_of_mem_lowerShifts s hs).1
      omega

/-- Where lower case is a single character of ASCII, the character was this one already or was a
capital letter of ASCII. The small k is left out, because it also comes from the sign for
kelvins. -/
theorem eq_or_isUpper_of_lowerChar_eq {c d : Char} (h : lowerChar c = [d]) (hd : d.toNat < 0x80)
    (hk : d ≠ 'k') : c = d ∨ c.isUpper = true := by
  have hc : c ≠ 'İ' := by
    rintro rfl
    have hlength := congrArg List.length h
    simp [lowerChar] at hlength
  have hnat := toNat_of_mem_lowerChar hc (h ▸ List.mem_singleton_self d)
  rcases Shifts.apply_eq_or lowerShifts c.toNat with heq | ⟨s, hs, hspan, himage⟩
  · left
    rw [← Char.toNat_inj, hnat, heq]
  · right
    have hoffset := Span.sub_le_of_has hspan
    rcases mem_lowerShifts_of_target_lt s hs (by omega) with rfl | rfl
    · have hle : 'A'.toNat ≤ c.toNat ∧ c.toNat ≤ 'Z'.toNat := by
        have hlast : c.toNat - 0x41 ≤ 0x5A - 0x41 := hoffset.2
        exact ⟨hoffset.1, by show c.toNat ≤ 0x5A; omega⟩
      exact decide_eq_true hle
    · -- the image is the small k
      have hkelvin : d.toNat = 'k'.toNat := by
        have hfirst : c.toNat - 0x212A ≤ 0x212A - 0x212A := hoffset.2
        show d.toNat = 0x6B
        dsimp only at himage
        omega
      exact absurd (Char.toNat_inj.1 hkelvin) hk

/-- What a character becomes in a text: its lower case, or a small sigma. -/
theorem lowerAfter_cons (before : List Char) (c : Char) (rest : List Char) :
    ∃ image, lowerAfter before (c :: rest) = image ++ lowerAfter (c :: before) rest ∧
      (image = lowerChar c ∨ c = 'Σ' ∧ (image = ['ς'] ∨ image = ['σ'])) := by
  rw [lowerAfter]
  refine ⟨_, rfl, ?_⟩
  by_cases hc : c = 'Σ'
  · subst hc
    right
    refine ⟨rfl, ?_⟩
    rw [if_pos (by decide)]
    split
    · exact Or.inl rfl
    · exact Or.inr rfl
  · left
    simp [hc]

/-- Lower case neither makes nor removes a space. -/
theorem count_space_lowerChar (c : Char) : (lowerChar c).count ' ' = [c].count ' ' := by
  by_cases hc : c = ' '
  · subst hc
    decide
  · -- a space is below the small letters, so that no other character becomes one
    have hnot : ' ' ∉ lowerChar c := by
      intro hmem
      rcases eq_or_le_of_mem_lowerChar hmem with h | h
      · exact hc h.symm
      · exact absurd h (by decide)
    rw [List.count_eq_zero_of_not_mem hnot, List.count_eq_zero_of_not_mem]
    simpa using Ne.symm hc

/-- Lower case adds no spaces and takes none away. -/
theorem count_space_lowerAfter (before s : List Char) :
    (lowerAfter before s).count ' ' = s.count ' ' := by
  induction s generalizing before with
  | nil => rfl
  | cons c rest ih =>
    obtain ⟨image, himage, hcases⟩ := lowerAfter_cons before c rest
    have hcount : image.count ' ' = [c].count ' ' := by
      rcases hcases with rfl | ⟨rfl, rfl | rfl⟩
      · exact count_space_lowerChar c
      · decide
      · decide
    rw [himage, List.count_append, ih, hcount, ← List.count_append, List.singleton_append]

/-- A character that says nothing about case ends what the case of a neighbour depends on. -/
theorem startsCased_append_caseless {x : Char} (hignorable : isCaseIgnorable x = false)
    (hcased : isCased x = false) (before behind : List Char) :
    startsCased (before ++ x :: behind) = startsCased before := by
  rw [startsCased, startsCased, List.dropWhile_append]
  cases hdrop : before.dropWhile isCaseIgnorable with
  | nil => simp [hignorable, hcased]
  | cons c rest => simp

/-- A character without case hides what is before it. -/
theorem lowerAfter_append_caseless {x : Char} (hignorable : isCaseIgnorable x = false)
    (hcased : isCased x = false) (before behind s : List Char) :
    lowerAfter (before ++ x :: behind) s = lowerAfter before s := by
  induction s generalizing before with
  | nil => rfl
  | cons c rest ih =>
    rw [lowerAfter, lowerAfter, startsCased_append_caseless hignorable hcased, ← List.cons_append,
      ih (c :: before)]

end Text

/-! ## Keys -/

namespace Comparer

/-- A key is the text or its lower case. -/
theorem key_eq_or (cmp : Comparer) (s : String) : cmp.key s = s ∨ cmp.key s = lowercase s := by
  cases cmp with
  | exact => exact Or.inl rfl
  | ignoreCase =>
    rw [key]
    split
    · exact Or.inr rfl
    · exact Or.inl rfl

@[simp] theorem key_symbol (cmp : Comparer) (w : Wildcard) : cmp.key w.symbol = w.symbol := by
  cases cmp <;> cases w <;> decide +kernel

/-- Only its symbol has the key of a wildcard. -/
theorem key_eq_symbol_iff (cmp : Comparer) (s : String) (w : Wildcard) :
    cmp.key s = w.symbol ↔ s = w.symbol := by
  constructor
  · intro h
    rcases cmp.key_eq_or s with hkey | hkey
    · rw [← hkey, h]
    · -- the lower case has as many characters as the text, and the symbol has one
      have hlower : lowerAfter [] s.toList = w.symbol.toList := by
        rw [← h, hkey, lowercase, String.toList_ofList]
      obtain ⟨x, hx, hsmall⟩ : ∃ x, w.symbol.toList = [x] ∧ x.toNat < 0x61 := by
        cases w <;> exact ⟨_, rfl, by decide⟩
      have hlength := length_lowerAfter [] s.toList
      rw [hlower, hx] at hlength
      apply String.toList_injective
      rw [hx]
      match hs : s.toList, hlength with
      | [], _ =>
        rw [hs, hx, lowerAfter] at hlower
        simp at hlower
      | [c], _ =>
        -- the image of the only character is below the small letters, so it is the character
        obtain ⟨image, himage, hcases⟩ := lowerAfter_cons [] c []
        rw [hs, himage, lowerAfter, List.append_nil, hx] at hlower
        subst hlower
        rcases hcases with hc | ⟨-, hc | hc⟩
        · rcases eq_or_le_of_mem_lowerChar (hc ▸ List.mem_singleton_self x) with rfl | hle
          · rfl
          · omega
        · obtain rfl := List.singleton_inj.1 hc
          exact absurd hsmall (by decide)
        · obtain rfl := List.singleton_inj.1 hc
          exact absurd hsmall (by decide)
  · rintro rfl
    exact key_symbol cmp w

/-- A wildcard has one spelling. -/
theorem equals_symbol_iff (cmp : Comparer) (s : String) (w : Wildcard) :
    cmp.equals s w.symbol = true ↔ s = w.symbol := by
  rw [equals_iff_key_eq, key_symbol, key_eq_symbol_iff]

/-- A character that has no case stays in front of a key. -/
theorem head?_key (cmp : Comparer) {s : String} {x : Char} (h : s.toList.head? = some x)
    (hx : lowerChar x = [x]) : (cmp.key s).toList.head? = some x := by
  rcases cmp.key_eq_or s with hkey | hkey
  · rw [hkey, h]
  · rw [hkey, lowercase, String.toList_ofList]
    cases hs : s.toList with
    | nil => simp [hs] at h
    | cons c rest =>
      rw [hs, List.head?_cons, Option.some.injEq] at h
      subst h
      have hsigma : c ≠ 'Σ' := by
        -- a capital sigma has a case
        rintro rfl
        exact absurd hx (by decide)
      obtain ⟨image, himage, hcases⟩ := lowerAfter_cons [] c rest
      rcases hcases with rfl | ⟨hc, -⟩
      · rw [himage, hx]
        rfl
      · exact absurd hc hsigma

/-- A character in front of a key that is below the small letters is in front of the text. -/
theorem head?_of_head?_key (cmp : Comparer) {s : String} {x : Char}
    (h : (cmp.key s).toList.head? = some x) (hx : x.toNat < 0x61) : s.toList.head? = some x := by
  rcases cmp.key_eq_or s with hkey | hkey
  · rw [← hkey, h]
  · rw [hkey, lowercase, String.toList_ofList] at h
    cases hs : s.toList with
    | nil => simp [hs, lowerAfter] at h
    | cons c rest =>
      obtain ⟨image, himage, hcases⟩ := lowerAfter_cons [] c rest
      rw [hs, himage] at h
      rcases hcases with rfl | ⟨rfl, rfl | rfl⟩
      · -- the image of the first character starts with the small character, which is then itself
        have hne : lowerChar c ≠ [] := by
          unfold lowerChar
          split <;> simp
        obtain ⟨d, ds, hd⟩ := List.exists_cons_of_ne_nil hne
        rw [hd, List.cons_append, List.head?_cons, Option.some.injEq] at h
        subst h
        have hmem : d ∈ lowerChar c := hd ▸ List.mem_cons_self ..
        rcases eq_or_le_of_mem_lowerChar hmem with rfl | hle
        · rfl
        · omega
      · obtain rfl := Option.some.inj h
        exact absurd hx (by decide)
      · obtain rfl := Option.some.inj h
        exact absurd hx (by decide)

/-- A dollar sign in front of a word is in front of its key. -/
theorem key_dollar (cmp : Comparer) (w : String) : cmp.key ("$" ++ w) = "$" ++ cmp.key w := by
  cases cmp with
  | exact => rfl
  | ignoreCase =>
    have hcaseless : isUppercase '$' = false := by decide
    have hlower : lowercase ("$" ++ w) = "$" ++ lowercase w := by
      apply String.toList_injective
      have hafter := lowerAfter_append_caseless (x := '$') (by decide) (by decide) [] [] w.toList
      rw [List.nil_append] at hafter
      have hdollar : lowerChar '$' = ['$'] := by decide
      simp [lowercase, lowerAfter, hafter, hdollar]
    have hany : ("$" ++ w).toList.any isUppercase = w.toList.any isUppercase := by
      simp [hcaseless]
    rw [key, key, hany, hlower]
    split <;> rfl

/-- Words behind a dollar sign are the same if the words are. -/
theorem equals_dollar (cmp : Comparer) (w v : String) :
    cmp.equals ("$" ++ w) ("$" ++ v) = cmp.equals w v := by
  rw [equals, equals, key_dollar, key_dollar, Bool.eq_iff_iff, beq_iff_eq, beq_iff_eq]
  constructor
  · intro h
    apply String.toList_injective
    simpa using congrArg String.toList h
  · intro h
    rw [h]

/-- What is the same as a word behind a dollar sign is such a word. -/
theorem exists_of_equals_dollar {cmp : Comparer} {s w : String}
    (h : cmp.equals s ("$" ++ w) = true) : ∃ v, s = "$" ++ v ∧ cmp.equals v w = true := by
  have hhead : (cmp.key s).toList.head? = some '$' := by
    rw [(cmp.equals_iff_key_eq ..).1 h, key_dollar]
    simp
  obtain ⟨v, hv⟩ := List.head?_eq_some_iff.1 (cmp.head?_of_head?_key hhead (by decide))
  have hs : s = "$" ++ String.ofList v := by
    apply String.toList_injective
    simp [hv]
  rw [hs, equals_dollar] at h
  exact ⟨String.ofList v, hs, h⟩

/-- A key has as many spaces as the text. -/
theorem count_space_key (cmp : Comparer) (s : String) :
    (cmp.key s).toList.count ' ' = s.toList.count ' ' := by
  rcases cmp.key_eq_or s with hkey | hkey
  · rw [hkey]
  · rw [hkey, lowercase, String.toList_ofList, count_space_lowerAfter]

/-- Only the empty text has the empty key. -/
theorem key_eq_empty_iff (cmp : Comparer) (s : String) :
    (cmp.key s).toList = [] ↔ s.toList = [] := by
  rcases cmp.key_eq_or s with hkey | hkey
  · rw [hkey]
  · rw [hkey, lowercase, String.toList_ofList]
    constructor
    · intro h
      have hlength := length_lowerAfter [] s.toList
      rw [h, List.length_nil, Nat.le_zero, List.length_eq_zero_iff] at hlength
      exact hlength
    · intro h
      rw [h, lowerAfter]

end Comparer

/-! ## Words of phrases -/

/-- Words joined by single spaces have one space less than words. -/
theorem count_space_joinWords {ws : List (List Char)} (h : ∀ w ∈ ws, ' ' ∉ w) (hne : ws ≠ []) :
    (joinWords ws).count ' ' + 1 = ws.length := by
  induction ws with
  | nil => exact absurd rfl hne
  | cons w ws ih =>
    have hw : w.count ' ' = 0 := List.count_eq_zero_of_not_mem (h w (List.mem_cons_self ..))
    cases ws with
    | nil => simp [joinWords, hw]
    | cons v vs =>
      have hrest := ih (fun u hu => h u (List.mem_cons_of_mem w hu)) (by simp)
      rw [joinWords, List.count_append, hw, List.count_cons_self, List.length_cons, ← hrest]
      omega

/-- There are no spaces in a word. -/
theorem not_mem_space_of_isWord {w : String} (h : IsWord w) : ' ' ∉ w.toList := by
  intro hmem
  have hblank := h.2 ' ' hmem
  exact absurd hblank (by decide)

/-- Between words there is one space each. -/
theorem count_space_unwords {ws : List String} (h : ∀ w ∈ ws, IsWord w) (hne : ws ≠ []) :
    (unwords ws).toList.count ' ' + 1 = ws.length := by
  rw [unwords, String.toList_ofList, ← List.length_map String.toList]
  apply count_space_joinWords
  · intro v hv
    obtain ⟨w, hw, rfl⟩ := List.mem_map.1 hv
    exact not_mem_space_of_isWord (h w hw)
  · simpa using hne

/-- Some words together are not empty. -/
theorem unwords_ne_empty {ws : List String} (h : ∀ w ∈ ws, IsWord w) (hne : ws ≠ []) :
    (unwords ws).toList ≠ [] := by
  intro hempty
  have hwords := words_unwords h
  rw [words, hempty] at hwords
  exact hne hwords.symm

/-- A phrase has no more words than a phrase with the same key. -/
theorem length_le_of_key_unwords_eq {cmp : Comparer} {ws vs : List String}
    (hws : ∀ w ∈ ws, IsWord w) (hvs : ∀ v ∈ vs, IsWord v) (hne : ws ≠ [])
    (h : cmp.key (unwords vs) = cmp.key (unwords ws)) : ws.length ≤ vs.length := by
  by_cases hvs' : vs = []
  · -- the key of the empty phrase is empty, and that of words is not
    subst hvs'
    have hempty : (cmp.key (unwords ws)).toList = [] := by
      rw [← h, Comparer.key_eq_empty_iff]
      rfl
    exact absurd ((cmp.key_eq_empty_iff _).1 hempty) (unwords_ne_empty hws hne)
  · -- otherwise the words are counted by the spaces between them, and keys keep spaces
    have hcount := cmp.count_space_key (unwords ws)
    rw [← h, cmp.count_space_key] at hcount
    have hw := count_space_unwords hws hne
    have hv := count_space_unwords hvs hvs'
    omega

/-! ## Sets of phrases -/

namespace PhraseSet

/-- The sets that can be built under a comparer: lists of phrases, and the computed sets. -/
inductive BuiltUnder (cmp : Comparer) : PhraseSet → Prop where
  | ofPhrases (phrases : List String) : BuiltUnder cmp (.ofPhrases cmp phrases)
  | number : BuiltUnder cmp .number
  | word : BuiltUnder cmp .word

/-- A set contains no phrase of more words than its bound. -/
theorem length_le_maxWords {cmp : Comparer} {set : PhraseSet} (hset : set.BuiltUnder cmp)
    {ws : List String} (hws : ∀ w ∈ ws, IsWord w) (hne : ws ≠ [])
    (h : set.contains (unwords ws) = true) : ws.length ≤ set.maxWords := by
  -- a phrase of the computed sets has no space in it, so it is a single word
  have hsingle : ' ' ∉ (unwords ws).toList → ws.length ≤ 1 := by
    intro hspace
    have hcount := count_space_unwords hws hne
    rw [List.count_eq_zero_of_not_mem hspace] at hcount
    omega
  cases hset with
  | ofPhrases phrases =>
    obtain ⟨p, hp, hkey⟩ := contains_ofPhrases_iff.1 h
    calc ws.length ≤ (words p).length :=
          length_le_of_key_unwords_eq hws (fun _ hv => isWord_of_mem_words hv) hne hkey
      _ ≤ (ofPhrases cmp phrases).maxWords := length_words_le_maxWords hp
  | number =>
    refine hsingle fun hspace => ?_
    rw [contains, Bool.and_eq_true, List.all_eq_true] at h
    exact absurd (h.2 ' ' hspace) (by decide +kernel)
  | word =>
    refine hsingle fun hspace => ?_
    rw [contains, Bool.and_eq_true, List.all_eq_true] at h
    exact absurd (h.2 ' ' hspace) (by decide)

end PhraseSet

namespace SetTable

/-- The tables that can be built under a comparer from sets built under it. -/
inductive BuiltUnder (cmp : Comparer) : SetTable → Prop where
  | empty : BuiltUnder cmp (.empty cmp)
  | insert {table : SetTable} {set : PhraseSet} (name : String) :
      BuiltUnder cmp table → set.BuiltUnder cmp → BuiltUnder cmp (table.insert name set)

variable {cmp : Comparer} {table : SetTable}

/-- Additions leave the comparer as it is. -/
theorem BuiltUnder.comparer_eq (h : table.BuiltUnder cmp) : table.comparer = cmp := by
  induction h with
  | empty => rfl
  | insert _ _ _ ih => exact ih

/-- What a table finds was built under its comparer. -/
theorem BuiltUnder.of_get? (h : table.BuiltUnder cmp) {name : String} {set : PhraseSet}
    (hget : table.get? name = some set) : set.BuiltUnder cmp := by
  induction h with
  | empty => simp [get?, SetTable.empty] at hget
  | insert other _ hset ih =>
    rw [get?_insert] at hget
    split at hget
    · exact Option.some.inj hget ▸ hset
    · exact ih hget

/-- A table does not tell names apart that are the same under its comparer. -/
theorem get?_congr {a b : String} (h : table.comparer.equals a b = true) :
    table.get? a = table.get? b := by
  rw [get?, get?, (Comparer.equals_iff_key_eq ..).1 h]

end SetTable

end Parley
