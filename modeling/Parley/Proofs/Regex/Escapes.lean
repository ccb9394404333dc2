import Parley.Proofs.Regex.Enclosing

/-!
# Escapes in front of a closing parenthesis

What an escape takes does not depend on whether it is read alone or in parentheses, and neither does
what it stands for, apart from sets of characters.
Main results: `embeds_readHex`, `embeds_readProperty`, and `embeds_readEscape` for all escapes.
-/

namespace Parley.Regex

open Text

section Escapes

variable {f g : Flags}

/-! ## Hexadecimal digits -/

/-- Reading hexadecimal digits, at most as many as are given. -/
def counted (f : Flags) (n : Nat) : Reader (List Char) := fun s => some (readHex.readCount f n s)

/-- A digit is taken if there is room for it, and more may follow. Nothing is skipped behind the
last one that there is room for. -/
theorem counted_of_isHexDigit (f : Flags) {c : Char} (hc : isHexDigit c = true) (n : Nat)
    (rest : List Char) :
    counted f (n + 1) (c :: rest) =
      andThen (if n = 0 then leave? (some ()) else skipping f) (fun _ =>
        andThen (counted f n) fun ds => leave? (some (c :: ds))) rest := by
  rw [counted, readHex.readCount, if_pos hc]
  by_cases hn : n = 0
  · rw [if_pos hn, if_pos hn]
    rfl
  · rw [if_neg hn, if_neg hn]
    rfl

/-- In front of a character that is no digit, no digits are taken. -/
theorem counted_of_not (f : Flags) {c : Char} (hc : isHexDigit c = false) (n : Nat)
    (rest : List Char) : counted f n (c :: rest) = leave? (some []) (c :: rest) := by
  cases n with
  | zero => rfl
  | succ n =>
    rw [counted, readHex.readCount, hc]
    rfl

/-- Counted digits are the same in both places, because the parenthesis is none. -/
theorem embeds_counted (halike : f.Alike g) (n : Nat) :
    Embeds f.verbose Eq (counted f n) (counted g n) := by
  have hstops : ∀ f n, Stops (counted f n) := by
    intro f n a r h
    cases n <;> exact (Prod.mk.inj (Option.some.inj h)).2.symm
  refine ⟨?_, hstops f n, hstops g n⟩
  -- induction on how many digits there is room for
  induction n with
  | zero => exact (embeds_leave?_self f.verbose (some [])).embedsAt
  | succ n ih =>
    have hnone := (embeds_leave?_self f.verbose (some ([] : List Char))).embedsAt
    intro u
    cases u with
    | nil => exact (hnone []).of_eq rfl (counted_of_not g (by decide) _)
    | cons c u =>
      cases hc : isHexDigit c with
      | false =>
        exact (hnone (c :: u)).of_eq (counted_of_not f hc _ u) fun t => counted_of_not g hc _ _
      | true =>
        refine EmbedsAt.of_eq ?_ (counted_of_isHexDigit f hc n u) fun t =>
          counted_of_isHexDigit g hc n _
        have hbetween : Embeds f.verbose Eq (if n = 0 then leave? (some ()) else skipping f)
            (if n = 0 then leave? (some ()) else skipping g) := by
          split
          · exact embeds_leave?_self _ _
          · exact embeds_skipping halike
        refine (hbetween.andThen_of_eq fun _ => ?_).embedsAt u
        exact Embeds.andThen_of_eq ⟨ih, hstops f n, hstops g n⟩ fun ds => embeds_leave?_self _ _

/-- Skipping behind a value. -/
def skippingAfter (f : Flags) {α : Type} (a? : Option α) : Reader α :=
  andThen (leave? a?) fun a => andThen (skipping f) fun _ => leave? (some a)

/-- Skipping behind a value keeps the value, if there is one. -/
theorem skippingAfter_eq (f : Flags) {α : Type} (a? : Option α) (s : List Char) :
    skippingAfter f a? s = a?.map fun a => (a, skip f s) := by
  cases a? <;> rfl

/-- Skipping behind a value is the same in both places. -/
theorem embeds_skippingAfter (halike : f.Alike g) {α : Type} (a? : Option α) :
    Embeds f.verbose Eq (skippingAfter f a?) (skippingAfter g a?) := by
  refine (embeds_leave?_self _ _).andThen_of_eq fun a => ?_
  exact (embeds_skipping halike).andThen_of_eq fun _ => embeds_leave?_self _ _

/-- The character with a code point in hexadecimal digits, of which there must be some. -/
def hexChar? (ds : List Char) : Option Char := if ds.isEmpty then none else charOf? (numberOf 16 ds)

/-- A character in hexadecimal digits, put together from readers: its digits stand in braces, or
there are exactly as many as the letter of the escape says. -/
theorem readHex_eq (f : Flags) (count : Nat) :
    readHex f count =
      andThen (skipping f) fun _ =>
        onChar '\x7b'
          (andThen (skipping f) fun _ => andThen (digits f isHexDigit) fun ds =>
            onChar '\x7d' (skippingAfter f (hexChar? ds)) refuse)
          (andThen (counted f count) fun ds =>
            skippingAfter f (if ds.length == count then charOf? (numberOf 16 ds) else none)) := by
  funext s
  show readHex f count s = onChar '\x7b' _ _ (skip f s)
  unfold readHex
  split
  · -- digits in braces, of which there must be some
    next s' hs =>
    rw [hs, onChar_cons]
    show _ = onChar '\x7d' _ _ (readDigits f isHexDigit (skip f s')).2
    split
    · next d ds rest hds =>
      rw [hds, onChar_cons, skippingAfter_eq]
      rfl
    · next hds =>
      generalize readDigits f isHexDigit (skip f s') = p at hds ⊢
      obtain ⟨ds, m⟩ := p
      cases m with
      | nil => rfl
      | cons c rest =>
        by_cases hc : c = '\x7d'
        · subst hc
          rw [onChar_cons, skippingAfter_eq]
          cases ds with
          | nil => rfl
          | cons d ds => exact absurd rfl (hds d ds rest)
        · exact (if_neg hc).symm
  · -- as many digits as are asked for
    next hs =>
    rw [onChar_of_ne hs]
    show _ = skippingAfter f _ (readHex.readCount f count (skip f s)).2
    rw [skippingAfter_eq]
    generalize readHex.readCount f count (skip f s) = p
    dsimp only
    cases p.1.length == count <;> rfl

/-- **Characters in hexadecimal digits are the same in both places.** -/
theorem embeds_readHex (halike : f.Alike g) (count : Nat) :
    Embeds f.verbose Eq (readHex f count) (readHex g count) := by
  rw [readHex_eq, readHex_eq]
  refine (embeds_skipping halike).andThen_of_eq fun _ => ?_
  refine embeds_onChar (by decide) (Embeds.embedsAt ?_) ?_
  · refine (embeds_skipping halike).andThen_of_eq fun _ => ?_
    refine (embeds_digits halike (by decide)).andThen_of_eq fun ds => ?_
    exact embeds_onChar (by decide) (embeds_skippingAfter halike _).embedsAt (embeds_refuse _)
  · exact (embeds_counted halike count).andThen_of_eq fun ds => embeds_skippingAfter halike _

/-- Blanks and comments do not depend on whether case is ignored. -/
theorem skip_of_alike (halike : f.Alike g) (s : List Char) : skip g s = skip f s := by
  obtain ⟨b, rfl⟩ := halike
  rfl

/-- Flags that agree ask for the same classes of characters. -/
theorem unicode_of_alike (halike : f.Alike g) : g.unicode = f.unicode := by
  obtain ⟨b, rfl⟩ := halike
  rfl

/-- A text up to a separator, which must be there, stays the same in front of other texts. -/
theorem splitFirst_append {separator : Char} {u name r : List Char}
    (h : splitFirst [separator] u = some (name, r)) (e : List Char) :
    splitFirst [separator] (u ++ e) = some (name, r ++ e) := by
  -- the separator has been found by the end of the first text
  induction u generalizing name with
  | nil => cases h
  | cons c u ih =>
    rw [List.cons_append]
    rw [splitFirst] at h ⊢
    have hhead : ∀ rest, [separator].isPrefixOf (c :: rest) = (separator == c) := by
      intro rest
      rw [List.isPrefixOf_cons_cons, List.isPrefixOf_nil_left, Bool.and_true]
    rw [hhead] at h ⊢
    split at h
    · next hc =>
      obtain ⟨rfl, rfl⟩ := Prod.mk.inj (Option.some.inj h)
      rw [if_pos hc]
      rfl
    · next hc =>
      obtain ⟨⟨left, right⟩, hsplit, hpair⟩ := Option.map_eq_some_iff.1 h
      obtain ⟨rfl, rfl⟩ := Prod.mk.inj hpair
      rw [if_neg hc, ih hsplit]
      rfl

/-- A text up to a separator is the same in both places, whatever characters it has; the parenthesis
may be one of them. -/
theorem embeds_splitFirst (v : Bool) (separator : Char) :
    Embeds v Eq (splitFirst [separator]) (splitFirst [separator]) where
  embedsAt u := by
    intro name r h
    exact Or.inl ⟨name, rfl, fun t => splitFirst_append h _⟩
  stops := by
    intro name r h
    cases h
  stops_right := by
    intro name r h
    cases h

/-- Sets that are read in two places have nothing else in common. -/
abbrev AnySets : CharSet → CharSet → Prop := fun _ _ => True

/-- The set that a property stands for, which it does not with ASCII classes. -/
def propertySet? (f : Flags) (negated : Bool) (s : CharSet) : Option CharSet :=
  if f.unicode then some (if negated then .compl (foldSet f s) else foldSet f s) else none

/-- A property stands for a set in both places or in none. -/
theorem rel_propertySet? (halike : f.Alike g) (negated : Bool) (set? : Option CharSet) :
    Option.Rel AnySets (set?.bind (propertySet? f negated))
      (set?.bind (propertySet? g negated)) := by
  cases set? with
  | none => exact .none
  | some s =>
    show Option.Rel AnySets (propertySet? f negated s) (propertySet? g negated s)
    rw [propertySet?, propertySet?, unicode_of_alike halike]
    split
    · exact .some trivial
    · exact .none

/-- A property, put together from readers: its name stands in braces, or it is the one letter of a
category. -/
theorem readProperty_eq (f : Flags) (negated : Bool) :
    readProperty f negated =
      andThen (skipping f) fun _ => onHead fun c =>
        if c = '\x7b' then
          andThen (splitFirst ['\x7d']) fun name =>
            leave? ((namedSet? (if f.verbose then name.filter (!isBlank ·) else name)).bind
              (propertySet? f negated))
        else if c = '\\' then refuse
        else skippingAfter f ((categorySet? (looseName [c])).bind (propertySet? f negated)) := by
  funext s
  show readProperty f negated s = onHead _ (skip f s)
  -- with ASCII classes there is no set, however the name is written
  have hfinish : ∀ set (rest : List Char), (if f.unicode then
      some (if negated then .compl (foldSet f set) else foldSet f set, rest) else none) =
        (propertySet? f negated set).map fun set => (set, rest) := by
    intro set rest
    unfold propertySet?
    split <;> rfl
  unfold readProperty
  generalize skip f s = m
  cases m with
  | nil => rfl
  | cons c s' =>
    by_cases hbrace : c = '\x7b'
    · subst hbrace
      show ((readProperty.readName f s').bind _).bind _ = (splitFirst ['\x7d'] s').bind _
      rw [readProperty.readName]
      cases splitFirst ['\x7d'] s' with
      | none => rfl
      | some p =>
        show ((namedSet? _).map _).bind _ = ((namedSet? _).bind (propertySet? f negated)).map _
        cases namedSet? (if f.verbose then p.1.filter (!isBlank ·) else p.1) with
        | none => rfl
        | some set => exact hfinish set p.2
    · by_cases hescape : c = '\\'
      · subst hescape
        rfl
      · rw [onHead, if_neg hbrace, if_neg hescape, skippingAfter_eq]
        split
        · next heq => exact absurd (List.cons.inj heq).1 hbrace
        · next heq => exact absurd (List.cons.inj heq).1 hescape
        · next heq =>
          obtain ⟨rfl, rfl⟩ := List.cons.inj heq
          cases categorySet? (looseName [c]) with
          | none => rfl
          | some set => exact hfinish set (skip f s')
        · next heq => cases heq

/-- **Properties are the same in both places,** apart from the sets that they stand for. -/
theorem embeds_readProperty (halike : f.Alike g) (negated : Bool) :
    Embeds f.verbose AnySets (readProperty f negated) (readProperty g negated) := by
  have hverbose : g.verbose = f.verbose := by
    obtain ⟨b, rfl⟩ := halike
    rfl
  rw [readProperty_eq, readProperty_eq, hverbose]
  refine (embeds_skipping halike).andThen_of_eq fun _ => embeds_onHead fun c => Embeds.embedsAt ?_
  refine embeds_ite ?_ (embeds_ite (embeds_refuse _) ?_)
  · refine (embeds_splitFirst _ _).andThen_of_eq fun name => ?_
    exact embeds_leave? _ (rel_propertySet? halike negated _)
  · refine (embeds_leave? _ (rel_propertySet? halike negated _)).andThen ?_ ?_ ?_
    · intro set set' _
      exact (embeds_skipping halike).andThen_of_eq fun _ => embeds_leave? _ (.some trivial)
    · exact fun _ => (stops_skipping f).andThen fun _ => stops_leave? _
    · exact fun _ => (stops_skipping g).andThen fun _ => stops_leave? _

/-! ### Word tests and escapes -/

/-- Whether a character may be in the name of a word test. -/
def isTestChar (c : Char) : Bool := c.isAlpha || c == '-'

/-- Reading a name and the brace behind it. -/
def namedTest (f : Flags) : Reader Look :=
  andThen (digits f isTestChar) fun name => onChar '\x7d' (leave? (namedTest? f name)) refuse

/-- Without a brace, the escape is a boundary of words. -/
theorem readWordTest_of_ne {s : List Char} (f : Flags) (h : ∀ inner, s = '\x7b' :: inner → False) :
    readWordTest f s = leave? (some (.wordBoundary !f.unicode)) s := by
  unfold readWordTest
  split
  · next inner => exact absurd rfl (h inner)
  · rfl

/-- Behind a brace, a name is read if one begins there. Otherwise the brace is left for what comes
next. -/
theorem readWordTest_of_brace {c : Char} {inner rest : List Char} (f : Flags)
    (hskip : skip f inner = c :: rest) :
    readWordTest f ('\x7b' :: inner) =
      if isTestChar c then namedTest f (c :: rest)
      else leave? (some (.wordBoundary !f.unicode)) ('\x7b' :: inner) := by
  simp only [readWordTest, hskip]
  cases hc : isTestChar c with
  | false =>
    have hnot : (!isTestChar c) = true := by rw [hc, Bool.not_false]
    exact if_pos hnot
  | true =>
    have hnot : ¬ (!isTestChar c) = true := by
      rw [hc]
      decide
    refine (if_neg hnot).trans ?_
    show _ = (fun p : List Char × List Char => onChar '\x7d' (leave? (namedTest? f p.1)) refuse p.2)
      (readDigits f (fun c => c.isAlpha || c == '-') (c :: rest))
    generalize readDigits f (fun c => c.isAlpha || c == '-') (c :: rest) = p
    split
    · next name after =>
      dsimp only
      rw [onChar_cons]
      rfl
    · next hne =>
      dsimp only
      rw [onChar_of_ne fun after hafter => hne p.1 after (Prod.ext rfl hafter)]
      rfl

/-- **Word tests are the same in both places.** -/
theorem embeds_readWordTest (halike : f.Alike g) :
    Embeds f.verbose Eq (readWordTest f) (readWordTest g) := by
  have hunicode := unicode_of_alike halike
  have hstops : ∀ f, Stops (readWordTest f) := by
    intro f a r h
    exact (Prod.mk.inj (Option.some.inj h)).2.symm
  have hplain : Embeds f.verbose Eq (leave? (some (Look.wordBoundary !f.unicode)))
      (leave? (some (Look.wordBoundary !g.unicode))) := by
    rw [hunicode]
    exact embeds_leave?_self _ _
  have hnamed : Embeds f.verbose Eq (namedTest f) (namedTest g) := by
    refine (embeds_digits halike (by decide)).andThen_of_eq fun name => ?_
    refine embeds_onChar (by decide) (Embeds.embedsAt ?_) (embeds_refuse _)
    rw [namedTest?, namedTest?, hunicode]
    exact embeds_leave?_self _ _
  refine ⟨?_, hstops f, hstops g⟩
  intro u
  cases u with
  | nil =>
    exact (hplain.embedsAt []).of_eq (readWordTest_of_ne f (by simp)) fun t =>
      readWordTest_of_ne g (by simp)
  | cons d inner =>
    by_cases hd : d = '\x7b'
    · subst hd
      cases hskip : skip f inner with
      | nil =>
        -- a brace at the end of the text begins nothing
        intro a r h
        simp only [readWordTest, hskip] at h
        cases h
      | cons c rest =>
        -- what comes next is the same in both places, and so is whether it begins a name
        have hright : ∀ t, skip g (inner ++ ')' :: t) = c :: (rest ++ ')' :: t) := by
          intro t
          rw [skip_of_alike halike, skip_append_of_ne_nil (by rw [hskip]; simp), hskip]
          rfl
        cases hc : isTestChar c with
        | false =>
          refine (hplain.embedsAt ('\x7b' :: inner)).of_eq ?_ fun t => ?_
          · rw [readWordTest_of_brace f hskip, hc]
            rfl
          · rw [List.cons_append, readWordTest_of_brace g (hright t), hc]
            rfl
        | true =>
          refine (hnamed.embedsAt (c :: rest)).of_eq ?_ fun t => ?_
          · rw [readWordTest_of_brace f hskip, hc]
            rfl
          · rw [List.cons_append, readWordTest_of_brace g (hright t), hc]
            rfl
    · have hne : ∀ s inner', d :: s = '\x7b' :: inner' → False := by
        intro s inner' heq
        exact hd (List.cons.inj heq).1
      exact (hplain.embedsAt (d :: inner)).of_eq (readWordTest_of_ne f (hne _)) fun t =>
        readWordTest_of_ne g (hne _)

/-- Whether two readings of an escape or a character are the same but for sets. -/
inductive Atom.Alike : Atom → Atom → Prop where
  | literal (c : Char) : Atom.Alike (.literal c) (.literal c)
  | set (s t : CharSet) : Atom.Alike (.set s) (.set t)
  | look (l : Look) : Atom.Alike (.look l) (.look l)

/-- Every reading is like itself. -/
theorem Atom.Alike.refl (a : Atom) : a.Alike a := by
  cases a with
  | literal c => exact .literal c
  | set s => exact .set s s
  | look l => exact .look l

/-- What an escape stands for if nothing behind its letter is read. -/
def shortEscape? (f : Flags) : Char → Option Atom
  | 'a' => some (.literal '\x07')
  | 'f' => some (.literal '\x0c')
  | 't' => some (.literal '\t')
  | 'n' => some (.literal '\n')
  | 'r' => some (.literal '\r')
  | 'v' => some (.literal '\x0b')
  | 'A' => some (.look .textStart)
  | 'z' => some (.look .textEnd)
  | 'B' => some (.look (.notWordBoundary !f.unicode))
  | '<' => some (.look (.wordStart !f.unicode))
  | '>' => some (.look (.wordEnd !f.unicode))
  | c =>
    if ['d', 's', 'w', 'D', 'S', 'W'].contains c then (shorthandSet? f c).map .set
    else if c.toNat < 128 && !c.isAlphanum then some (.literal c)
    else none

/-- Reading the two hexadecimal digits of a character. -/
def readByte (f : Flags) : Reader Atom := fun s =>
  (readHex f 2 s).bind fun p =>
    if standsForByte f p.1 s then none else some (.literal p.1, p.2)

/-- Reading what is behind the letter of an escape. -/
def escapeBehind (f : Flags) : Char → Reader Atom
  | 'x' => readByte f
  | 'u' => mapping .literal (readHex f 4)
  | 'U' => mapping .literal (readHex f 8)
  | 'p' => mapping .set (readProperty f false)
  | 'P' => mapping .set (readProperty f true)
  | 'b' => mapping .look (readWordTest f)
  | c => leave? (shortEscape? f c)

/-- An escape, put together from readers: its letter says what is read behind it. -/
theorem readEscape_eq (f : Flags) : readEscape f = onHead (escapeBehind f) := by
  funext s
  cases s with
  | nil => rfl
  | cons c rest =>
    show _ = escapeBehind f c rest
    unfold readEscape
    dsimp only
    split
    · show _ = readByte f rest
      unfold readByte
      cases readHex f 2 rest <;> rfl
    -- the letters that have a meaning of their own
    · rfl
    · rfl
    · rfl
    · rfl
    · rfl
    · rfl
    · rfl
    · rfl
    · rfl
    · rfl
    · rfl
    · rfl
    · rfl
    · rfl
    · rfl
    · rfl
    -- all others
    · have hbehind : escapeBehind f c = leave? (shortEscape? f c) := by
        unfold escapeBehind
        split <;> first | contradiction | rfl
      have hshort : shortEscape? f c =
          if ['d', 's', 'w', 'D', 'S', 'W'].contains c then (shorthandSet? f c).map .set
          else if c.toNat < 128 && !c.isAlphanum then some (.literal c)
          else none := by
        unfold shortEscape?
        split <;> first | contradiction | rfl
      rw [hbehind, hshort, leave?]
      split
      · cases shorthandSet? f c <;> rfl
      · split <;> rfl

/-- Of nothing, two digits are not read. -/
theorem stops_readByte (f : Flags) : Stops (readByte f) := by
  intro a r h
  obtain ⟨p, hp, h⟩ := Option.bind_eq_some_iff.1 h
  split at h
  · cases h
  · obtain ⟨-, rfl⟩ := Prod.mk.inj (Option.some.inj h)
    exact (embeds_readHex (.refl f) 2).stops p.1 p.2 hp

/-- A character in two hexadecimal digits is the same in both places. Whether a brace follows the
first one is seen in both, because the text is not at its end. -/
theorem embeds_readByte (halike : f.Alike g) :
    Embeds f.verbose Atom.Alike (readByte f) (readByte g) where
  embedsAt u := by
    intro a r h
    obtain ⟨⟨d, after⟩, hhex, h⟩ := Option.bind_eq_some_iff.1 h
    -- there is a digit, so that verbose mode skips the same in both places
    have hdigit : skip f u ≠ [] := by
      intro hnil
      rw [readHex_eq] at hhex
      change onChar '\x7b' _ _ (skip f u) = _ at hhex
      rw [hnil] at hhex
      cases hhex
    have hbyte : ∀ t, standsForByte g d (u ++ ')' :: t) = standsForByte f d u := by
      intro t
      obtain ⟨e, m, hskip⟩ := List.exists_cons_of_ne_nil hdigit
      unfold standsForByte
      rw [skip_of_alike halike, unicode_of_alike halike, skip_append_of_ne_nil hdigit, hskip,
        List.cons_append, List.head?_cons, List.head?_cons]
    split at h
    · cases h
    · next hnot =>
      obtain ⟨rfl, rfl⟩ := Prod.mk.inj (Option.some.inj h)
      rcases (embeds_readHex halike 2).embedsAt u d after hhex with
        ⟨b, rfl, hkeeps⟩ | ⟨hverbose, hr, hswallows⟩
      · refine Or.inl ⟨.literal d, .literal d, fun t => ?_⟩
        rw [readByte, hkeeps t, Option.bind_some, hbyte t, if_neg hnot]
      · refine Or.inr ⟨hverbose, hr, fun b r' h' => ?_⟩
        obtain ⟨p, hp, h'⟩ := Option.bind_eq_some_iff.1 h'
        split at h'
        · cases h'
        · obtain ⟨-, rfl⟩ := Prod.mk.inj (Option.some.inj h')
          exact hswallows p.1 p.2 hp
  stops := stops_readByte f
  stops_right := stops_readByte g

/-- What a letter stands for alone does not depend on whether case is ignored. -/
theorem shortEscape?_of_alike (halike : f.Alike g) (c : Char) :
    shortEscape? g c = shortEscape? f c := by
  obtain ⟨b, rfl⟩ := halike
  rfl

/-- **Escapes are the same in both places,** apart from sets. -/
theorem embeds_readEscape (halike : f.Alike g) :
    Embeds f.verbose Atom.Alike (readEscape f) (readEscape g) := by
  have hchar : ∀ c d : Char, c = d → (Atom.literal c).Alike (.literal d) := by
    rintro c _ rfl
    exact .literal c
  have hset : ∀ s t : CharSet, True → (Atom.set s).Alike (.set t) := fun s t _ => .set s t
  have hlook : ∀ k l : Look, k = l → (Atom.look k).Alike (.look l) := by
    rintro k _ rfl
    exact .look k
  rw [readEscape_eq, readEscape_eq]
  refine embeds_onHead fun c => Embeds.embedsAt ?_
  unfold escapeBehind
  split
  · exact embeds_readByte halike
  · exact (embeds_readHex halike 4).mapping hchar
  · exact (embeds_readHex halike 8).mapping hchar
  · exact (embeds_readProperty halike false).mapping hset
  · exact (embeds_readProperty halike true).mapping hset
  · exact (embeds_readWordTest halike).mapping hlook
  · rw [shortEscape?_of_alike halike]
    exact (embeds_leave?_self _ _).imp fun a b hab => hab ▸ .refl a

end Escapes

end Parley.Regex
