import Mathlib.Data.List.TakeWhile
import Parley.Markup.Tag

/-!
# The syntax of tags

What tags and their attributes look like, as a grammar. Reading looks ahead by one character at
every point and never goes back; here it is compared with the grammar, which says nothing about how
tags are read.

Main results:

* `readTag?_eq_some_iff` — what is read as a tag is what the grammar calls one;
* `attributesIn_attributePart` — the attributes of a tag are those that the grammar says.
-/

namespace Parley.Markup

open Text

/-! ## Grammar -/

/-- A value between quotes of one kind, and the value itself. -/
inductive QuotedValue : List Char → List Char → Prop where
  | double {value : List Char} (h : '"' ∉ value) : QuotedValue ('"' :: (value ++ ['"'])) value
  | single {value : List Char} (h : '\'' ∉ value) : QuotedValue ('\'' :: (value ++ ['\''])) value

/-- A name, an equals sign with blanks around it and a quoted value, and the name and the value
themselves. -/
inductive NamedValue : List Char → List Char → List Char → Prop where
  | mk {name before after quoted value : List Char} (hne : name ≠ [])
    (hname : ∀ c ∈ name, isAttributeNameChar c = true) (hbefore : ∀ c ∈ before, isBlank c = true)
    (hafter : ∀ c ∈ after, isBlank c = true) (hquoted : QuotedValue quoted value) :
    NamedValue (name ++ before ++ '=' :: after ++ quoted) name value

/-- Any number of attributes, each with blanks in front of it, and the attributes themselves, with
names in lower case. -/
inductive AttributePart : List Char → List (String × String) → Prop where
  | nil : AttributePart [] []
  | cons {gap text name value rest : List Char} {attributes : List (String × String)}
    (hne : gap ≠ []) (hgap : ∀ c ∈ gap, isBlank c = true) (hvalue : NamedValue text name value)
    (hrest : AttributePart rest attributes) :
    AttributePart (gap ++ text ++ rest)
      ((asciiLowercase (String.ofList name), String.ofList value) :: attributes)

/-- A slash, or nothing. -/
def slash (present : Bool) : List Char := if present then ['/'] else []

/-- The text of a tag. -/
inductive TagText : List Char → Tag → Prop where
  | mk {closing selfClosing : Bool} {c : Char} {letters part gap : List Char}
    {attributes : List (String × String)} (hstart : isNameStart c = true)
    (hletters : ∀ d ∈ letters, isNameChar d = true) (hpart : AttributePart part attributes)
    (hgap : ∀ d ∈ gap, isBlank d = true) :
    TagText
      ('<' :: slash closing ++ c :: letters ++ part ++ gap ++ slash selfClosing ++ ['>'])
      { closing, name := asciiLowercase (String.ofList (c :: letters)), attributePart := part
        selfClosing }

/-! ## Blanks are in no names -/

/-- No blank is part of a name, which is looked up in the table of blanks. -/
theorem not_isNameChar_of_isBlank {c : Char} (h : isBlank c = true) :
    isNameChar c = false ∧ isAttributeNameChar c = false := by
  have hascending : Spans.Ascending blankSpans := by decide
  have htable : ∀ s ∈ blankSpans, ∀ n ∈ List.range' s.first (s.last + 1 - s.first),
      isNameChar (Char.ofNat n) = false ∧ isAttributeNameChar (Char.ofNat n) = false := by
    decide +kernel
  obtain ⟨s, hs, hc⟩ := (Spans.has_iff hascending c.toNat).1 h
  have hrange : c.toNat ∈ List.range' s.first (s.last + 1 - s.first) := by
    simp only [Span.has, Bool.and_eq_true, decide_eq_true_eq] at hc
    rw [List.mem_range'_1]
    omega
  have hnot := htable s hs _ hrange
  rwa [Char.ofNat_toNat] at hnot

/-- No character of the name of an attribute is a blank. -/
theorem not_isBlank_of_isAttributeNameChar {c : Char} (h : isAttributeNameChar c = true) :
    isBlank c = false := by
  rw [← Bool.not_eq_true]
  intro hblank
  rw [(not_isNameChar_of_isBlank hblank).2] at h
  cases h

/-! ## Runs of characters -/

/-- A run in front of a character that does not belong to it is taken whole. -/
theorem takeWhile_run {p : Char → Bool} {run : List Char} (hrun : ∀ c ∈ run, p c = true) {d : Char}
    (hd : p d = false) (rest : List Char) : (run ++ d :: rest).takeWhile p = run := by
  rw [List.takeWhile_append_of_pos hrun, List.takeWhile_cons_of_neg (by simp [hd]),
    List.append_nil]

/-- What is behind the run begins with that character. -/
theorem dropWhile_run {p : Char → Bool} {run : List Char} (hrun : ∀ c ∈ run, p c = true) {d : Char}
    (hd : p d = false) (rest : List Char) : (run ++ d :: rest).dropWhile p = d :: rest := by
  rw [List.dropWhile_append_of_pos hrun, List.dropWhile_cons_of_neg (by simp [hd])]

/-- What is taken is a run. -/
theorem forall_mem_takeWhile (p : Char → Bool) (s : List Char) : ∀ c ∈ s.takeWhile p, p c = true :=
  fun _ hc => List.mem_takeWhile_imp hc

/-- A run and what is behind it are the text. -/
theorem takeWhile_append_of_dropWhile {p : Char → Bool} {s rest : List Char}
    (h : s.dropWhile p = rest) : s.takeWhile p ++ rest = s := by
  rw [← h, List.takeWhile_append_dropWhile]

/-- What is behind a run begins with a character that ends it. -/
theorem not_of_dropWhile {p : Char → Bool} {s rest : List Char} {d : Char}
    (h : s.dropWhile p = d :: rest) : p d = false := by
  have hne : s.dropWhile p ≠ [] := by simp [h]
  simpa [h] using List.head_dropWhile_not p hne

/-- A run that is not empty is skipped. -/
theorem skipSome_run {p : Char → Bool} {run : List Char} (hne : run ≠ [])
    (hrun : ∀ c ∈ run, p c = true) {d : Char} (hd : p d = false) (rest : List Char) :
    skipSome p (run ++ d :: rest) = some (d :: rest) := by
  obtain ⟨c, run, rfl⟩ := List.exists_cons_of_ne_nil hne
  rw [List.cons_append, skipSome, if_pos (hrun c List.mem_cons_self),
    dropWhile_run (fun e he => hrun e (List.mem_cons_of_mem c he)) hd]

/-- What is skipped is the longest run, and it is not empty. -/
theorem eq_append_of_skipSome {p : Char → Bool} {s rest : List Char}
    (h : skipSome p s = some rest) :
    s = s.takeWhile p ++ rest ∧ s.takeWhile p ≠ [] ∧ rest = s.dropWhile p := by
  cases s with
  | nil => cases h
  | cons c s =>
    rw [skipSome] at h
    split at h
    · next hc =>
      obtain rfl := Option.some.inj h
      rw [List.takeWhile_cons_of_pos hc, List.dropWhile_cons_of_pos hc]
      refine ⟨?_, List.cons_ne_nil _ _, rfl⟩
      rw [List.cons_append, List.takeWhile_append_dropWhile]
    · cases h

/-! ## Attributes -/

/-- A value without its quote is read up to the quote. -/
theorem readQuoted_append {quote : Char} {value : List Char} (h : quote ∉ value)
    (rest : List Char) : readQuoted quote (value ++ quote :: rest) = some (value, rest) := by
  have hvalue : ∀ c ∈ value, (c != quote) = true := by
    intro c hc
    rw [bne_iff_ne]
    rintro rfl
    exact h hc
  have hquote : (quote != quote) = false := by simp
  rw [readQuoted, dropWhile_run hvalue hquote, takeWhile_run hvalue hquote]

/-- What is read as a value goes up to the first quote. -/
theorem eq_append_of_readQuoted {quote : Char} {s value rest : List Char}
    (h : readQuoted quote s = some (value, rest)) :
    s = value ++ quote :: rest ∧ quote ∉ value := by
  rw [readQuoted] at h
  split at h
  · cases h
  · next d r hd =>
    obtain ⟨rfl, rfl⟩ := Prod.mk.inj (Option.some.inj h)
    have hquote : d = quote := by
      have hfirst := not_of_dropWhile hd
      simpa using hfirst
    constructor
    · rw [← hquote, takeWhile_append_of_dropWhile (hquote ▸ hd)]
    · intro hmem
      simpa using forall_mem_takeWhile _ _ _ hmem

/-- A quoted value behind an equals sign is read, with any blanks around the sign. -/
theorem readValue?_append {before after quoted value : List Char}
    (hbefore : ∀ c ∈ before, isBlank c = true) (hafter : ∀ c ∈ after, isBlank c = true)
    (hquoted : QuotedValue quoted value) (rest : List Char) :
    readValue? (before ++ '=' :: (after ++ (quoted ++ rest))) = some (value, rest) := by
  have hequals : isBlank '=' = false := by decide
  rw [readValue?, dropWhile_run hbefore hequals]
  cases hquoted with
  | double h =>
    have hquote : isBlank '"' = false := by decide
    simp only [List.cons_append, List.append_assoc, List.nil_append, dropWhile_run hafter hquote]
    exact readQuoted_append h rest
  | single h =>
    have hquote : isBlank '\'' = false := by decide
    simp only [List.cons_append, List.append_assoc, List.nil_append, dropWhile_run hafter hquote]
    exact readQuoted_append h rest

/-- What is read as a value is one of the grammar, with blanks around its equals sign. -/
theorem exists_of_readValue? {s value rest : List Char} (h : readValue? s = some (value, rest)) :
    ∃ before after quoted, (∀ c ∈ before, isBlank c = true) ∧ (∀ c ∈ after, isBlank c = true) ∧
      QuotedValue quoted value ∧ s = before ++ '=' :: (after ++ (quoted ++ rest)) := by
  rw [readValue?] at h
  split at h
  · next r hr =>
    have hs := takeWhile_append_of_dropWhile hr
    -- both kinds of quotes stand behind the same blanks
    have hquoted : ∀ {q : List Char}, r.dropWhile isBlank = q → ∀ {quoted : List Char},
        q = quoted ++ rest → QuotedValue quoted value →
        ∃ before after quoted, (∀ c ∈ before, isBlank c = true) ∧
          (∀ c ∈ after, isBlank c = true) ∧ QuotedValue quoted value ∧
          s = before ++ '=' :: (after ++ (quoted ++ rest)) := by
      intro q hq quoted heq hvalue
      refine ⟨_, _, quoted, forall_mem_takeWhile _ s, forall_mem_takeWhile _ r, hvalue, ?_⟩
      rw [← heq, takeWhile_append_of_dropWhile hq, hs]
    split at h
    · next q hq =>
      obtain ⟨rfl, hvalue⟩ := eq_append_of_readQuoted h
      exact hquoted hq (by simp) (.double hvalue)
    · next q hq =>
      obtain ⟨rfl, hvalue⟩ := eq_append_of_readQuoted h
      exact hquoted hq (by simp) (.single hvalue)
    · cases h
  · cases h

/-- A named value of the grammar is read, whatever follows. -/
theorem readNamedValue?_append {text name value : List Char} (h : NamedValue text name value)
    (rest : List Char) : readNamedValue? (text ++ rest) = some (name, value, rest) := by
  obtain @⟨name, before, after, quoted, value, hne, hname, hbefore, hafter, hquoted⟩ := h
  -- the name ends at a blank or at the equals sign
  obtain ⟨d, r, hd, hr⟩ : ∃ d r, isAttributeNameChar d = false ∧
      before ++ '=' :: (after ++ (quoted ++ rest)) = d :: r := by
    cases before with
    | nil => exact ⟨'=', _, by decide +kernel, rfl⟩
    | cons d before =>
      exact ⟨d, _, (not_isNameChar_of_isBlank (hbefore d List.mem_cons_self)).2, rfl⟩
  have hvalue := readValue?_append hbefore hafter hquoted rest
  have htext : name ++ before ++ '=' :: after ++ quoted ++ rest = name ++ d :: r := by
    rw [← hr]
    simp
  rw [hr] at hvalue
  rw [htext, readNamedValue?, skipSome_run hne hname hd, takeWhile_run hname hd]
  dsimp only
  rw [hvalue]
  rfl

/-- What is read as a named value is one of the grammar. -/
theorem exists_of_readNamedValue? {s name value rest : List Char}
    (h : readNamedValue? s = some (name, value, rest)) :
    ∃ text, NamedValue text name value ∧ s = text ++ rest := by
  rw [readNamedValue?] at h
  split at h
  · cases h
  · next r hr =>
    obtain ⟨⟨v, t⟩, hv, hpair⟩ := Option.map_eq_some_iff.1 h
    simp only [Prod.mk.injEq] at hpair
    obtain ⟨hname, rfl, rfl⟩ := hpair
    obtain ⟨hs, hne, -⟩ := eq_append_of_skipSome hr
    obtain ⟨before, after, quoted, hbefore, hafter, hquoted, rfl⟩ := exists_of_readValue? hv
    rw [hname] at hs hne
    refine ⟨_, .mk hne ?_ hbefore hafter hquoted, ?_⟩
    · rw [← hname]
      exact forall_mem_takeWhile _ s
    · rw [hs]
      simp

/-- A named value begins with its name. -/
theorem exists_head_namedValue {text name value : List Char} (h : NamedValue text name value) :
    ∃ c rest, isAttributeNameChar c = true ∧ text = c :: rest := by
  cases h with
  | mk hne hname _ _ _ =>
    obtain ⟨c, letters, rfl⟩ := List.exists_cons_of_ne_nil hne
    exact ⟨c, _, hname c List.mem_cons_self, rfl⟩

/-- An attribute is a named value with blanks in front of it. -/
theorem readAttribute?_append {gap text name value : List Char} (hne : gap ≠ [])
    (hgap : ∀ c ∈ gap, isBlank c = true) (h : NamedValue text name value) (rest : List Char) :
    readAttribute? (gap ++ text ++ rest) = some rest := by
  have hread := readNamedValue?_append h rest
  obtain ⟨c, letters, hc, rfl⟩ := exists_head_namedValue h
  rw [List.cons_append] at hread
  rw [List.append_assoc, List.cons_append, readAttribute?,
    skipSome_run hne hgap (not_isBlank_of_isAttributeNameChar hc)]
  dsimp only
  rw [hread]
  rfl

/-- What is read as an attribute is a named value with blanks in front of it. -/
theorem exists_of_readAttribute? {s rest : List Char} (h : readAttribute? s = some rest) :
    ∃ gap text name value, gap ≠ [] ∧ (∀ c ∈ gap, isBlank c = true) ∧
      NamedValue text name value ∧ s = gap ++ text ++ rest := by
  rw [readAttribute?] at h
  split at h
  · cases h
  · next r hr =>
    obtain ⟨⟨name, value, t⟩, hv, rfl⟩ := Option.map_eq_some_iff.1 h
    obtain ⟨hs, hne, -⟩ := eq_append_of_skipSome hr
    obtain ⟨text, htext, rfl⟩ := exists_of_readNamedValue? hv
    exact ⟨_, text, name, value, hne, forall_mem_takeWhile _ s, htext, by
      rw [List.append_assoc]; exact hs⟩

/-- No attribute, nothing to skip. -/
theorem skipAttributes_of_none {s : List Char} (h : readAttribute? s = none) :
    skipAttributes s = s := by
  rw [skipAttributes]
  split
  · rfl
  · next hsome =>
    rw [h] at hsome
    cases hsome

/-- An attribute is skipped, and then those behind it. -/
theorem skipAttributes_of_some {s rest : List Char} (h : readAttribute? s = some rest) :
    skipAttributes s = skipAttributes rest := by
  rw [skipAttributes]
  split
  · next hnone =>
    rw [h] at hnone
    cases hnone
  · next hsome =>
    rw [h] at hsome
    rw [Option.some.inj hsome]

/-- The attributes of the grammar are skipped, if no other one follows. -/
theorem skipAttributes_append {part rest : List Char} {attributes : List (String × String)}
    (h : AttributePart part attributes)
    (hrest : readAttribute? rest = none) : skipAttributes (part ++ rest) = rest := by
  induction h with
  | nil => exact skipAttributes_of_none hrest
  | cons hne hgap hvalue _ ih =>
    rw [List.append_assoc, skipAttributes_of_some (readAttribute?_append hne hgap hvalue _), ih]

/-- What is skipped are attributes of the grammar. -/
theorem exists_of_skipAttributes (s : List Char) :
    ∃ part attributes, AttributePart part attributes ∧ s = part ++ skipAttributes s := by
  fun_induction skipAttributes s with
  | case1 s => exact ⟨[], [], .nil, rfl⟩
  | case2 s rest h ih =>
    obtain ⟨gap, text, name, value, hne, hgap, hvalue, hs⟩ := exists_of_readAttribute? h
    obtain ⟨part, attributes, hpart, hrest⟩ := ih
    refine ⟨gap ++ text ++ part, _, .cons hne hgap hvalue hpart, ?_⟩
    rw [List.append_assoc, ← hrest]
    exact hs

/-! ## The attributes in a tag -/

/-- A character that begins no named value is passed over. -/
theorem attributesIn_of_none {c : Char} {rest : List Char}
    (h : readNamedValue? (c :: rest) = none) :
    attributesIn (c :: rest) = attributesIn rest := by
  rw [attributesIn]
  split
  · next hsome =>
    rw [h] at hsome
    cases hsome
  · rfl

/-- A named value is noted, with its name in lower case, and the scan goes on behind it. -/
theorem attributesIn_of_some {s name value rest : List Char}
    (h : readNamedValue? s = some (name, value, rest)) :
    attributesIn s =
      (asciiLowercase (String.ofList name), String.ofList value) :: attributesIn rest := by
  cases s with
  | nil => cases h
  | cons c s =>
    rw [attributesIn]
    split
    · next hsome =>
      rw [h] at hsome
      obtain ⟨rfl, hpair⟩ := Prod.mk.inj (Option.some.inj hsome)
      obtain ⟨rfl, rfl⟩ := Prod.mk.inj hpair
      rfl
    · next hnone =>
      rw [h] at hnone
      cases hnone

/-- Blanks are passed over, as no name begins with one. -/
theorem attributesIn_blanks {gap : List Char} (hgap : ∀ c ∈ gap, isBlank c = true)
    (rest : List Char) : attributesIn (gap ++ rest) = attributesIn rest := by
  induction gap with
  | nil => rfl
  | cons c gap ih =>
    have hc := (not_isNameChar_of_isBlank (hgap c List.mem_cons_self)).2
    have hnone : readNamedValue? (c :: (gap ++ rest)) = none := by
      simp [readNamedValue?, skipSome, hc]
    rw [List.cons_append, attributesIn_of_none hnone]
    exact ih fun d hd => hgap d (List.mem_cons_of_mem c hd)

/-- The attributes that are found in a tag are those that the grammar says. -/
theorem attributesIn_attributePart {part : List Char} {attributes : List (String × String)}
    (h : AttributePart part attributes) : attributesIn part = attributes := by
  induction h with
  | nil => rw [attributesIn]
  | cons _ hgap hvalue _ ih =>
    rw [List.append_assoc, attributesIn_blanks hgap,
      attributesIn_of_some (readNamedValue?_append hvalue _), ih]

/-- To look for an attribute in a text is to look it up among all that are in the text. -/
theorem valueIn?_eq_lookup (wanted : String) (s : List Char) :
    valueIn? wanted s = (attributesIn s).lookup (asciiLowercase wanted) := by
  fun_induction valueIn? wanted s with
  | case1 => rw [attributesIn]; rfl
  | case2 c rest name value after hread heq =>
    rw [attributesIn_of_some hread, List.lookup_cons, heq, beq_self_eq_true]
  | case3 c rest name value after hread hne ih =>
    have hbeq : (asciiLowercase wanted == asciiLowercase (String.ofList name)) = false :=
      beq_eq_false_iff_ne.2 (Ne.symm hne)
    rw [attributesIn_of_some hread, List.lookup_cons, hbeq, ih]
  | case4 c rest hread ih => rw [attributesIn_of_none hread, ih]

/-- To look an attribute up is to look its name up in lower case among those of the tag. -/
theorem Tag.attribute?_eq_lookup (t : Tag) (wanted : String) :
    t.attribute? wanted = t.attributes.lookup (asciiLowercase wanted) :=
  valueIn?_eq_lookup wanted t.attributePart

/-! ## Tags -/

/-- What may stand behind the attributes of a tag is not the start of a further one. -/
theorem readAttribute?_end {gap : List Char} (hgap : ∀ c ∈ gap, isBlank c = true) {d : Char}
    (hd : isBlank d = false) (hname : isAttributeNameChar d = false) (rest : List Char) :
    readAttribute? (gap ++ d :: rest) = none := by
  rw [readAttribute?]
  cases gap with
  | nil => simp [skipSome, hd]
  | cons c gap =>
    rw [skipSome_run (List.cons_ne_nil c gap) hgap hd]
    simp [readNamedValue?, skipSome, hname]

/-- An optional slash is recognised in front of anything that is no slash. -/
theorem takeSlash_slash (b : Bool) {c : Char} (hc : c ≠ '/') (rest : List Char) :
    takeSlash (slash b ++ c :: rest) = (b, c :: rest) := by
  cases b with
  | true => rfl
  | false =>
    show takeSlash (c :: rest) = _
    unfold takeSlash
    split
    · next heq => exact absurd (List.cons.inj heq).1 hc
    · rfl

/-- What has been taken is the optional slash. -/
theorem eq_slash_of_takeSlash {s rest : List Char} {b : Bool} (h : takeSlash s = (b, rest)) :
    s = slash b ++ rest := by
  unfold takeSlash at h
  split at h <;> obtain ⟨rfl, rfl⟩ := Prod.mk.inj h <;> rfl

/-- No name begins with a slash. -/
theorem ne_slash_of_isNameStart {c : Char} (h : isNameStart c = true) : c ≠ '/' := by
  rintro rfl
  revert h
  decide

/-- A tag is read, whatever follows it. -/
theorem readTag?_append {text : List Char} {t : Tag} (h : TagText text t) :
    ∃ inside, text = '<' :: inside ∧ ∀ rest, readTag? (inside ++ rest) = some (t, rest) := by
  obtain @⟨closing, selfClosing, c, letters, part, gap, attributes, hstart, hletters, hpart,
    hgap⟩ := h
  refine ⟨slash closing ++ c :: letters ++ part ++ gap ++ slash selfClosing ++ ['>'], by simp,
    fun rest => ?_⟩
  -- behind the blanks there is a slash or the closing bracket
  obtain ⟨d, r, hd, hname, hattribute, hr⟩ : ∃ d r, isBlank d = false ∧ isNameChar d = false ∧
      isAttributeNameChar d = false ∧ slash selfClosing ++ '>' :: rest = d :: r := by
    cases selfClosing with
    | true => exact ⟨'/', _, by decide, by decide +kernel, by decide +kernel, rfl⟩
    | false => exact ⟨'>', _, by decide, by decide +kernel, by decide +kernel, rfl⟩
  have htext : slash closing ++ c :: letters ++ part ++ gap ++ slash selfClosing ++ ['>'] ++ rest =
      slash closing ++ c :: (letters ++ (part ++ (gap ++ d :: r))) := by
    rw [← hr]
    simp
  -- the name ends at a blank or there
  obtain ⟨e, m, he, hm⟩ : ∃ e m, isNameChar e = false ∧ part ++ (gap ++ d :: r) = e :: m := by
    cases hpart with
    | nil =>
      cases gap with
      | nil => exact ⟨d, r, hname, rfl⟩
      | cons e gap =>
        exact ⟨e, _, (not_isNameChar_of_isBlank (hgap e List.mem_cons_self)).1, rfl⟩
    | @cons blanks _ _ _ _ _ hne hblanks _ _ =>
      obtain ⟨e, blanks, rfl⟩ := List.exists_cons_of_ne_nil hne
      exact ⟨e, _, (not_isNameChar_of_isBlank (hblanks e List.mem_cons_self)).1, rfl⟩
  have hbehind : skipAttributes (part ++ (gap ++ d :: r)) = gap ++ d :: r :=
    skipAttributes_append hpart (readAttribute?_end hgap hd hattribute r)
  have hlength : (part ++ (gap ++ d :: r)).length - (gap ++ d :: r).length = part.length := by
    rw [List.length_append]
    omega
  rw [htext, readTag?, takeSlash_slash closing (ne_slash_of_isNameStart hstart)]
  dsimp only
  rw [if_pos hstart, hm, takeWhile_run hletters he, dropWhile_run hletters he, ← hm, hbehind,
    dropWhile_run hgap hd, ← hr, takeSlash_slash selfClosing (by decide), hr, hlength,
    List.take_left]
  rfl

/-- What is read as a tag is the text of one, its parts read off one after the other. -/
theorem exists_of_readTag? {s rest : List Char} {t : Tag} (h : readTag? s = some (t, rest)) :
    ∃ text, TagText text t ∧ '<' :: s = text ++ rest := by
  rw [readTag?] at h
  split at h
  · next closing c r hs =>
    split at h
    · next hstart =>
      dsimp only at h
      split at h
      · next selfClosing after hafter =>
        simp only [Option.some.injEq, Prod.mk.injEq] at h
        obtain ⟨rfl, rfl⟩ := h
        obtain ⟨part, attributes, hpart, hinside⟩ :=
          exists_of_skipAttributes (r.dropWhile isNameChar)
        generalize skipAttributes (r.dropWhile isNameChar) = behind at hafter hinside ⊢
        -- the part of the attributes is cut out by its length
        have hlength : (r.dropWhile isNameChar).take
            ((r.dropWhile isNameChar).length - behind.length) = part := by
          rw [hinside, List.length_append, Nat.add_sub_cancel, List.take_left]
        rw [hlength]
        refine ⟨_, .mk hstart (forall_mem_takeWhile _ r) hpart (forall_mem_takeWhile _ behind), ?_⟩
        have hend := takeWhile_append_of_dropWhile (eq_slash_of_takeSlash hafter)
        have hr := takeWhile_append_of_dropWhile hinside
        rw [eq_slash_of_takeSlash hs]
        -- the text put together from its parts
        conv => lhs; rw [← hr, ← hend]
        simp
      · cases h
    · cases h
  · cases h

/-- What is read as a tag is what the grammar calls one. -/
theorem readTag?_eq_some_iff {s rest : List Char} {t : Tag} :
    readTag? s = some (t, rest) ↔ ∃ text, TagText text t ∧ '<' :: s = text ++ rest := by
  refine ⟨exists_of_readTag?, ?_⟩
  rintro ⟨text, htext, hs⟩
  obtain ⟨inside, rfl, hread⟩ := readTag?_append htext
  obtain rfl := (List.cons.inj hs).2
  exact hread rest

end Parley.Markup
