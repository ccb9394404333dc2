import Parley.Proofs.Regex.Runs

/-!
# What pieces take

Every part of the reader takes a part from the start of its text. Where no blanks are skipped, what
it takes never ends in a space, with one exception: a space that is a piece by itself.

Main results:

* `Takes.andThen` — the comparison goes through one reader after the other;
* `takes_readSet` — a bracketed set ends in its bracket;
* `exists_taken` — what a piece takes.
-/

namespace Parley.Regex

open Text

/-! ## Ends of texts -/

/-- Whether a text does not end in a space, provided that blanks are not skipped. -/
def Clear (verbose : Bool) (u : List Char) : Prop := verbose = false → u.getLast? ≠ some ' '

/-- Whether a text is not empty either. -/
def Settled (verbose : Bool) (u : List Char) : Prop := u ≠ [] ∧ Clear verbose u

/-- What is clear where blanks count is clear where they are skipped too. -/
theorem Clear.of_false {u : List Char} (h : Clear false u) (verbose : Bool) : Clear verbose u :=
  fun _ => h rfl

/-- The empty text does not end in a space. -/
theorem clear_nil (verbose : Bool) : Clear verbose [] := fun _ h => by cases h

/-- Two texts that are clear are clear together. -/
theorem Clear.append {verbose : Bool} {u v : List Char} (hu : Clear verbose u)
    (hv : Clear verbose v) : Clear verbose (u ++ v) := by
  intro hverbose
  rw [List.getLast?_append]
  -- an empty second part leaves the end of the first one
  cases hlast : v.getLast? with
  | none => exact hu hverbose
  | some c => exact fun h => hv hverbose (hlast.trans h)

/-- The start of a text has no say in how it ends. -/
theorem Settled.append_left {verbose : Bool} {v : List Char} (h : Settled verbose v)
    (u : List Char) : Settled verbose (u ++ v) := by
  refine ⟨fun hnil => h.1 (List.append_eq_nil_iff.1 hnil).2, fun hverbose => ?_⟩
  rw [List.getLast?_append_of_ne_nil u h.1]
  exact h.2 hverbose

/-- One character that is no space settles a text, even if nothing follows it. -/
theorem settled_cons {verbose : Bool} {c : Char} (hc : c ≠ ' ') {u : List Char}
    (h : Clear verbose u) : Settled verbose (c :: u) := by
  have hfirst : Clear verbose [c] := fun _ hlast => hc (Option.some.inj hlast)
  exact ⟨List.cons_ne_nil c u, hfirst.append h⟩

/-! ## Readers -/

section Reader

variable {α γ : Type} {R S : Reader α} {ok ok' : List Char → Prop}

/-- Whether a reader takes a part of its text, from the start, that passes a test. -/
def Takes (ok : List Char → Prop) (R : Reader α) : Prop :=
  ∀ s a r, R s = some (a, r) → ∃ u, s = u ++ r ∧ ok u

/-- Whether a reader takes a part of its text from the start. -/
abbrev TakesAny (R : Reader α) : Prop := Takes (fun _ => True) R

/-- A weaker test is passed by the same reader. -/
theorem Takes.imp (h : Takes ok R) (hok : ∀ u, ok u → ok' u) : Takes ok' R := by
  intro s a r hs
  obtain ⟨u, hu, hpass⟩ := h s a r hs
  exact ⟨u, hu, hok u hpass⟩

/-- A reader that takes something with a property takes it from the start. -/
theorem Takes.any (h : Takes ok R) : TakesAny R := h.imp fun _ _ => trivial

/-- What is settled is clear. -/
theorem Takes.clear {verbose : Bool} (h : Takes (Settled verbose) R) : Takes (Clear verbose) R :=
  h.imp fun _ hu => hu.2

/-- What two readers take one after the other. -/
theorem Takes.andThen_of {test : List Char → Prop} {T : α → Reader γ} (hR : Takes ok R)
    (hT : ∀ a, Takes ok' (T a)) (htest : ∀ u v, ok u → ok' v → test (u ++ v)) :
    Takes test (andThen R T) := by
  intro s c r h
  obtain ⟨⟨a, m⟩, ha, hc⟩ := Option.bind_eq_some_iff.1 h
  obtain ⟨u, rfl, hu⟩ := hR s a m ha
  obtain ⟨v, rfl, hv⟩ := hT a m c r hc
  exact ⟨u ++ v, (List.append_assoc ..).symm, htest u v hu hv⟩

/-- Two readers that leave no space at the end leave none one after the other. -/
theorem Takes.andThen {T : α → Reader γ} {verbose : Bool} (hR : Takes (Clear verbose) R)
    (hT : ∀ a, Takes (Clear verbose) (T a)) : Takes (Clear verbose) (Regex.andThen R T) :=
  hR.andThen_of hT fun _ _ => Clear.append

/-- Two readers that take from the start do so one after the other. -/
theorem TakesAny.andThen {T : α → Reader γ} (hR : TakesAny R) (hT : ∀ a, TakesAny (T a)) :
    TakesAny (Regex.andThen R T) :=
  hR.andThen_of hT fun _ _ _ _ => trivial

/-- The last reader decides how what is taken ends, if it takes something. -/
theorem TakesAny.andThen_settled {T : α → Reader γ} {verbose : Bool} (hR : TakesAny R)
    (hT : ∀ a, Takes (Settled verbose) (T a)) : Takes (Settled verbose) (Regex.andThen R T) :=
  hR.andThen_of hT fun u _ _ hv => hv.append_left u

/-- Reading nothing takes the empty text. -/
theorem takes_leave? (a? : Option α) (verbose : Bool) : Takes (Clear verbose) (leave? a?) := by
  intro s a r h
  obtain ⟨b, -, hr⟩ := Option.map_eq_some_iff.1 h
  obtain ⟨-, rfl⟩ := Prod.mk.inj hr
  exact ⟨[], rfl, clear_nil verbose⟩

/-- A reader that always fails takes whatever one likes. -/
theorem takes_refuse : Takes ok (refuse : Reader α) := by
  intro s a r h
  cases h

/-- What is made of the result has no influence on what is taken. -/
theorem Takes.mapping {β : Type} (h : Takes ok R) (k : α → β) : Takes ok (mapping k R) := by
  intro s a r hs
  obtain ⟨⟨b, m⟩, hb, heq⟩ := Option.map_eq_some_iff.1 hs
  obtain ⟨-, rfl⟩ := Prod.mk.inj heq
  exact h s b m hb

/-- A character in front of what a reader takes. -/
theorem Takes.onChar {c : Char} (hR : ∀ u, ok u → ok' (c :: u)) (h : Takes ok R)
    (hS : Takes ok' S) : Takes ok' (onChar c R S) := by
  intro s a r hs
  cases s with
  | nil => exact hS [] a r hs
  | cons d rest =>
    -- the reader behind `c` sees the rest, the other reader the whole text
    by_cases hd : d = c
    · subst hd
      rw [onChar_cons] at hs
      obtain ⟨u, rfl, hu⟩ := h rest a r hs
      exact ⟨d :: u, rfl, hR u hu⟩
    · exact hS (d :: rest) a r ((if_neg hd).symm.trans hs)

/-- A character that is no space in front of a reader that leaves no space at the end. -/
theorem Takes.onChar_clear {c : Char} {verbose : Bool} (hc : c ≠ ' ')
    (h : Takes (Clear verbose) R) (hS : Takes (Clear verbose) S) :
    Takes (Clear verbose) (Regex.onChar c R S) :=
  h.onChar (fun _ hu => (settled_cons hc hu).2) hS

/-- A character, a space too, in front of a reader that takes something. -/
theorem Takes.onChar_settled {c : Char} {verbose : Bool} (h : Takes (Settled verbose) R)
    (hS : Takes (Settled verbose) S) : Takes (Settled verbose) (Regex.onChar c R S) :=
  h.onChar (fun _ hu => hu.append_left [c]) hS

/-- A closing character, which takes something even if what is behind it does not. -/
theorem Takes.closing {c : Char} {verbose : Bool} (hc : c ≠ ' ') (h : Takes (Clear verbose) R)
    (hS : Takes (Settled verbose) S) : Takes (Settled verbose) (Regex.onChar c R S) :=
  h.onChar (fun _ => settled_cons hc) hS

end Reader

/-! ## Blanks, numbers and names -/

/-- Blanks and comments are skipped at the start of the text. -/
theorem exists_skipVerbose (inComment : Bool) (s : List Char) :
    ∃ u, s = u ++ skipVerbose inComment s := by
  induction s generalizing inComment with
  | nil => exact ⟨[], rfl⟩
  | cons c rest ih =>
    -- whatever mode the rest is skipped in, the first character is skipped with it
    have hcons : ∀ b, ∃ u, c :: rest = u ++ skipVerbose b rest := by
      intro b
      obtain ⟨u, hu⟩ := ih b
      exact ⟨c :: u, congrArg (c :: ·) hu⟩
    rw [skipVerbose]
    split
    · exact hcons _
    · split
      · exact hcons _
      · split
        · exact hcons _
        · exact ⟨[], rfl⟩

/-- What is skipped is at the start of a text, and nothing is if blanks are not. -/
theorem exists_skip (f : Flags) (s : List Char) :
    ∃ u, s = u ++ skip f s ∧ (f.verbose = false → u = []) := by
  unfold skip
  split
  · next hverbose =>
    obtain ⟨u, hu⟩ := exists_skipVerbose false s
    exact ⟨u, hu, fun hfalse => absurd (hverbose.symm.trans hfalse) (by decide)⟩
  · exact ⟨[], rfl, fun _ => rfl⟩

section Parts

variable (f : Flags)

/-- Skipping takes blanks only where they do not count. -/
theorem takes_skipping : Takes (Clear f.verbose) (skipping f) := by
  intro s a r h
  obtain ⟨-, rfl⟩ := Prod.mk.inj (Option.some.inj h)
  obtain ⟨u, hu, hnil⟩ := exists_skip f s
  refine ⟨u, hu, fun hverbose => ?_⟩
  rw [hnil hverbose]
  exact clear_nil _ hverbose

/-- The blanks around a number are at the start of what is left. -/
theorem takes_dropping : TakesAny dropping := by
  intro s a r h
  obtain ⟨-, rfl⟩ := Prod.mk.inj (Option.some.inj h)
  exact ⟨s.takeWhile isBlank, (List.takeWhile_append_dropWhile).symm, trivial⟩

/-- Digits, with the blanks between them, are at the start of the text. -/
theorem takes_digits (isDigit : Char → Bool) : TakesAny (digits f isDigit) := by
  intro s a r h
  -- induction on the length, because blanks are skipped between digits
  induction hlength : s.length using Nat.strongRecOn generalizing s a r with
  | _ n ih =>
    subst hlength
    cases s with
    | nil =>
      rw [digits, readDigits] at h
      obtain ⟨-, rfl⟩ := Prod.mk.inj (Option.some.inj h)
      exact ⟨[], rfl, trivial⟩
    | cons c rest =>
      cases hc : isDigit c with
      | false =>
        rw [digits_of_not f hc] at h
        exact (takes_leave? _ false).any _ a r h
      | true =>
        have hlength := length_skip f rest
        obtain ⟨u, hu, -⟩ := exists_skip f rest
        rw [digits_of_isDigit f hc] at h
        rw [andThen, skipping, Option.bind_some] at h
        obtain ⟨⟨ds, m⟩, hds, h⟩ := Option.bind_eq_some_iff.1 h
        obtain ⟨-, rfl⟩ := Prod.mk.inj (Option.some.inj h)
        obtain ⟨v, hv, -⟩ := ih _ (by rw [List.length_cons]; omega) (skip f rest) ds m hds rfl
        refine ⟨c :: (u ++ v), ?_, trivial⟩
        rw [List.cons_append, List.append_assoc, ← hv, ← hu]

/-- A number of a repetition, with the blanks around it. -/
theorem takes_readDecimal : TakesAny (readDecimal f) := by
  rw [readDecimal_eq]
  refine takes_dropping.andThen fun _ => (takes_digits f _).andThen fun ds => ?_
  exact takes_dropping.andThen fun _ =>
    (takes_skipping f).any.andThen fun _ => (takes_leave? _ false).any

/-- The bounds of a repetition end in their brace, in all three forms. -/
theorem takes_bounds (verbose : Bool) : Takes (Settled verbose) (bounds f) := by
  have hbrace : '\x7d' ≠ ' ' := by decide
  have hskip : TakesAny (skipping f) := (takes_skipping f).any
  refine hskip.andThen_settled fun _ => (takes_readDecimal f).andThen_settled fun first? => ?_
  refine Takes.onChar_settled (hskip.andThen_settled fun _ => ?_)
    ((takes_leave? _ _).closing hbrace takes_refuse)
  refine (takes_leave? _ _).closing hbrace ?_
  refine (takes_leave? _ verbose).any.andThen_settled fun first => ?_
  refine (takes_readDecimal f).andThen_settled fun last? => ?_
  refine (takes_leave? _ verbose).any.andThen_settled fun last => ?_
  exact (takes_leave? _ _).closing hbrace takes_refuse

/-- A text up to a mark ends in the mark. -/
theorem takes_splitFirst {c : Char} (hc : c ≠ ' ') (verbose : Bool) :
    Takes (Settled verbose) (splitFirst [c]) := by
  intro s a r h
  induction s generalizing a with
  | nil => cases h
  | cons d rest ih =>
    rw [splitFirst] at h
    -- the mark is here, or further on behind `d`
    split at h
    · next hprefix =>
      obtain ⟨-, rfl⟩ := Prod.mk.inj (Option.some.inj h)
      obtain rfl : c = d := by simpa [List.isPrefixOf] using hprefix
      exact ⟨[c], rfl, settled_cons hc (clear_nil _)⟩
    · obtain ⟨⟨left, right⟩, hsplit, heq⟩ := Option.map_eq_some_iff.1 h
      obtain ⟨-, rfl⟩ := Prod.mk.inj heq
      obtain ⟨u, rfl, hu⟩ := ih left hsplit
      exact ⟨d :: u, rfl, hu.append_left [d]⟩

/-! ## Escapes -/

/-- Digits counted off end in a digit or in skipped blanks. -/
theorem takes_counted (n : Nat) : Takes (Clear f.verbose) (counted f n) := by
  intro s a r h
  induction n generalizing s a r with
  | zero =>
    obtain ⟨-, rfl⟩ := Prod.mk.inj (Option.some.inj h)
    exact ⟨[], rfl, clear_nil _⟩
  | succ n ih =>
    cases s with
    | nil =>
      obtain ⟨-, rfl⟩ := Prod.mk.inj (Option.some.inj h)
      exact ⟨[], rfl, clear_nil _⟩
    | cons c rest =>
      cases hc : isHexDigit c with
      | false =>
        rw [counted_of_not f hc] at h
        exact takes_leave? _ _ _ a r h
      | true =>
        have hspace : c ≠ ' ' := by
          rintro rfl
          exact absurd hc (by decide)
        -- blanks are skipped between two digits, but not behind the last one
        have hskip : Takes (Clear f.verbose)
            (if n = 0 then leave? (some ()) else skipping f) := by
          split
          · exact takes_leave? _ _
          · exact takes_skipping f
        rw [counted_of_isHexDigit f hc] at h
        have htail : Takes (Clear f.verbose) (counted f n) := ih
        obtain ⟨u, rfl, hu⟩ :=
          (hskip.andThen fun _ => htail.andThen fun ds => takes_leave? _ _) rest a r h
        exact ⟨c :: u, rfl, (settled_cons hspace hu).2⟩

/-- A result and the blanks that may be skipped behind it. -/
theorem takes_skippingAfter {α : Type} (a? : Option α) :
    Takes (Clear f.verbose) (skippingAfter f a?) :=
  (takes_leave? a? _).andThen fun _ => (takes_skipping f).andThen fun _ => takes_leave? _ _

/-- A hexadecimal escape ends in its brace, or in the last of its digits. -/
theorem takes_readHex (count : Nat) : Takes (Clear f.verbose) (readHex f count) := by
  rw [readHex_eq]
  refine (takes_skipping f).andThen fun _ => Takes.onChar_clear (by decide) ?_ ?_
  · refine Takes.clear ((takes_skipping f).any.andThen_settled fun _ => ?_)
    refine (takes_digits f _).andThen_settled fun ds => ?_
    exact (takes_skippingAfter f _).closing (by decide) takes_refuse
  · exact (takes_counted f count).andThen fun ds => takes_skippingAfter f _

/-- An escape of two digits is one of `takes_readHex`, its value checked. -/
theorem takes_readByte : Takes (Clear f.verbose) (readByte f) := by
  intro s a r h
  obtain ⟨⟨d, m⟩, hd, h⟩ := Option.bind_eq_some_iff.1 h
  split at h
  · cases h
  · obtain ⟨-, rfl⟩ := Prod.mk.inj (Option.some.inj h)
    exact takes_readHex f 2 s d m hd

/-- The name of a property ends in a brace, or is one letter. -/
theorem takes_readProperty (negated : Bool) : Takes (Clear f.verbose) (readProperty f negated) := by
  rw [readProperty_eq]
  refine (takes_skipping f).andThen fun _ => ?_
  intro s a r h
  cases s with
  | nil => cases h
  | cons c rest =>
    dsimp only [onHead] at h
    split at h
    · next hbrace =>
      subst hbrace
      have hname := (takes_splitFirst (c := '\x7d') (by decide) f.verbose).clear
      obtain ⟨u, rfl, hu⟩ := (hname.andThen fun name => takes_leave? _ _) rest a r h
      exact ⟨_ :: u, rfl, (settled_cons (by decide) hu).2⟩
    · split at h
      · cases h
      · obtain ⟨u, rfl, hu⟩ := takes_skippingAfter f _ rest a r h
        refine ⟨c :: u, rfl, (settled_cons ?_ hu).2⟩
        -- a space is not the letter of a category
        rintro rfl
        have hnone : categorySet? (looseName [' ']) = none := by decide
        rw [hnone] at h
        cases h

/-- A word test has a name in braces or no name, and then takes nothing. -/
theorem takes_readWordTest : Takes (Clear f.verbose) (readWordTest f) := by
  intro s a r h
  by_cases hbrace : ∃ inner, s = '\x7b' :: inner
  · obtain ⟨inner, rfl⟩ := hbrace
    -- the name begins behind the blanks that follow the brace
    cases hskip : skip f inner with
    | nil =>
      rw [readWordTest, hskip] at h
      cases h
    | cons c rest =>
      rw [readWordTest_of_brace f hskip] at h
      split at h
      · have hnamed : Takes (Settled f.verbose) (namedTest f) :=
          (takes_digits f _).andThen_settled fun name =>
            (takes_leave? _ _).closing (by decide) takes_refuse
        obtain ⟨u, hu, hsettled⟩ := hnamed _ a r h
        obtain ⟨v, hv, -⟩ := exists_skip f inner
        refine ⟨'\x7b' :: v ++ u, ?_, (hsettled.append_left _).2⟩
        rw [List.cons_append, List.cons_append, List.append_assoc, ← hu, ← hskip, ← hv]
      · exact takes_leave? _ _ _ a r h
  · rw [readWordTest_of_ne f fun inner hs => hbrace ⟨inner, hs⟩] at h
    exact takes_leave? _ _ _ a r h

/-- What is behind the letter of an escape, whichever the letter is. -/
theorem takes_escapeBehind (c : Char) : Takes (Clear f.verbose) (escapeBehind f c) := by
  unfold escapeBehind
  split
  · exact takes_readByte f
  · exact (takes_readHex f 4).mapping _
  · exact (takes_readHex f 8).mapping _
  · exact (takes_readProperty f false).mapping _
  · exact (takes_readProperty f true).mapping _
  · exact (takes_readWordTest f).mapping _
  · exact takes_leave? _ _

/-- An escape ends in a space only if it is one. -/
theorem exists_taken_of_readEscape {s r : List Char} {a : Atom} (h : readEscape f s = some (a, r)) :
    ∃ u, s = u ++ r ∧ u ≠ [] ∧ (Clear f.verbose u ∨ u = [' '] ∧ a = .literal ' ') := by
  rw [readEscape_eq] at h
  cases s with
  | nil => cases h
  | cons c rest =>
    obtain ⟨u, rfl, hu⟩ := takes_escapeBehind f c rest a r h
    refine ⟨c :: u, rfl, List.cons_ne_nil c u, ?_⟩
    by_cases hc : c = ' '
    · subst hc
      cases u with
      | nil =>
        obtain ⟨rfl, -⟩ := Prod.mk.inj (Option.some.inj h)
        exact Or.inr ⟨rfl, rfl⟩
      | cons d u =>
        -- nothing is read behind an escaped space
        have hr := congrArg List.length (Prod.mk.inj (Option.some.inj h)).2
        simp only [List.cons_append, List.length_cons, List.length_append] at hr
        omega
    · exact Or.inl (settled_cons hc hu).2

/-! ## Bracketed sets -/

/-- An element of a set is a character or an escape. -/
theorem takes_readSetAtom : TakesAny (readSetAtom f) := by
  intro s a r h
  rw [readSetAtom_eq] at h
  cases s with
  | nil => cases h
  | cons c rest =>
    dsimp only [onHead] at h
    split at h
    · obtain ⟨u, rfl, -⟩ := exists_taken_of_readEscape f h
      exact ⟨c :: u, rfl, trivial⟩
    · obtain ⟨-, rfl⟩ := Prod.mk.inj (Option.some.inj h)
      exact ⟨[c], rfl, trivial⟩

/-- The hyphen of a range and the blanks around it. -/
theorem exists_rangeEnd? {s after : List Char} (h : rangeEnd? f s = some after) :
    ∃ u, s = u ++ after := by
  unfold rangeEnd? at h
  split at h
  · next m =>
    obtain ⟨u, hu, -⟩ := exists_skip f m
    split at h
    · cases h
    · cases h
    · obtain rfl := Option.some.inj h
      exact ⟨'-' :: u, congrArg _ hu⟩
  · cases h

/-- An item of a set is an element or the two ends of a range. -/
theorem takes_readSetItem : TakesAny (readSetItem f) := by
  rw [readSetItem_eq]
  refine (takes_readSetAtom f).andThen fun first => (takes_skipping f).any.andThen fun _ => ?_
  intro s a r h
  rw [itemRest] at h
  split at h
  · exact (takes_leave? _ false).any s a r h
  · next after hrange =>
    obtain ⟨u, rfl⟩ := exists_rangeEnd? f hrange
    obtain ⟨v, rfl, -⟩ := ((takes_readSetAtom f).andThen fun last =>
      (takes_leave? _ false).any) after a r h
    exact ⟨u ++ v, (List.append_assoc ..).symm, trivial⟩

/-- A named class is written between colons. -/
theorem takes_readAsciiClass : TakesAny (readAsciiClass f) := by
  have hname : ∀ negated, TakesAny (className f negated) := fun negated =>
    (takes_splitFirst (by decide) false).any.andThen fun name =>
      ((takes_leave? _ false).closing (by decide) takes_refuse).any
  intro s a r h
  cases s with
  | nil => cases h
  | cons c rest =>
    by_cases hc : c = ':'
    · subst hc
      rw [readAsciiClass_colon] at h
      have hnames : TakesAny (onChar '^' (className f true) (className f false)) :=
        (hname true).onChar (fun _ h => h) (hname false)
      obtain ⟨u, rfl, -⟩ := hnames rest a r h
      exact ⟨':' :: u, rfl, trivial⟩
    · rw [readAsciiClass_of_ne f fun rest' h => hc (List.cons.inj h).1] at h
      cases h

/-- The start of a set: a sign, hyphens, and a bracket as an element. -/
theorem exists_openSet (s : List Char) : ∃ u, s = u ++ (openSet f s).2 := by
  have hafter : ∀ {α : Type} (a? : Option α), TakesAny (skippingAfter f a?) := fun a? =>
    (takes_skippingAfter f a?).any
  have hhyphens : ∀ negated, TakesAny (setHyphens f negated) := by
    intro negated
    refine (takes_digits f _).andThen fun hyphens => ?_
    split
    · exact (hafter _).onChar (fun _ h => h) (takes_leave? _ false).any
    · exact (takes_leave? _ false).any
  have hstart : TakesAny (setStart f) :=
    (takes_skipping f).any.andThen fun _ => TakesAny.andThen
      ((hafter _).onChar (fun _ h => h) (takes_leave? _ false).any) hhyphens
  obtain ⟨u, hu, -⟩ := hstart s _ _ (setStart_eq f s)
  exact ⟨u, hu⟩

/-- The operators between sets have two characters. -/
theorem exists_operation? {s r : List Char} {op : SetOp} (h : operation? s = some (op, r)) :
    ∃ u, s = u ++ r := by
  unfold operation? at h
  split at h
  · obtain ⟨-, rfl⟩ := Prod.mk.inj (Option.some.inj h)
    exact ⟨['&', '&'], rfl⟩
  · obtain ⟨-, rfl⟩ := Prod.mk.inj (Option.some.inj h)
    exact ⟨['-', '-'], rfl⟩
  · obtain ⟨-, rfl⟩ := Prod.mk.inj (Option.some.inj h)
    exact ⟨['~', '~'], rfl⟩
  · cases h

/-- A bracketed set ends in its bracket. -/
theorem takes_readSet (verbose : Bool) (n : Nat) (outer : List PartialSet) (p : PartialSet) :
    Takes (Settled verbose) (readSet f n outer p) := by
  intro s a r h
  -- on the fuel, which each item, bracket and operator costs
  induction n generalizing outer p s with
  | zero =>
    rw [readSet] at h
    cases h
  | succ n ih =>
    -- what comes first, and the rest of the set behind it
    have hgo : ∀ {u m : List Char} {outer p}, s = u ++ m → readSet f n outer p m = some (a, r) →
        ∃ u, s = u ++ r ∧ Settled verbose u := by
      rintro u m outer p rfl h
      obtain ⟨v, rfl, hv⟩ := ih outer p m h
      exact ⟨u ++ v, (List.append_assoc ..).symm, hv.append_left u⟩
    obtain ⟨u, hu, -⟩ := exists_skip f s
    cases hskip : skip f s with
    | nil =>
      rw [readSet_nil hskip] at h
      cases h
    | cons c rest =>
      rw [hskip] at hu
      by_cases hopen : c = '['
      · subst hopen
        rw [readSet_open hskip] at h
        split at h
        · next set m hclass =>
          obtain ⟨v, rfl, -⟩ := takes_readAsciiClass f rest _ _ hclass
          exact hgo (u := u ++ '[' :: v) (by rw [hu]; simp) h
        · cases h
        · obtain ⟨v, hv⟩ := exists_openSet f rest
          exact hgo (u := u ++ '[' :: v) (by rw [List.append_assoc, List.cons_append, ← hv, hu]) h
      · by_cases hclose : c = ']'
        · subst hclose
          rw [readSet_close hskip] at h
          obtain ⟨set, -, h⟩ := Option.bind_eq_some_iff.1 h
          have hbracket : Settled verbose (u ++ [']']) :=
            (settled_cons (by decide) (clear_nil _)).append_left u
          cases outer with
          | nil =>
            obtain ⟨-, rfl⟩ := Prod.mk.inj (Option.some.inj h)
            exact ⟨u ++ [']'], by rw [hu]; simp, hbracket⟩
          | cons q outer => exact hgo (u := u ++ [']']) (by rw [hu]; simp) h
        · cases hop : operation? (c :: rest) with
          | some q =>
            obtain ⟨op, m⟩ := q
            rw [readSet_operation hskip hop] at h
            obtain ⟨v, hv⟩ := exists_operation? hop
            exact hgo (u := u ++ v) (by rw [List.append_assoc, ← hv, hu]) h
          | none =>
            rw [readSet_item hskip hopen hclose hop] at h
            obtain ⟨⟨item, m⟩, hitem, h⟩ := Option.bind_eq_some_iff.1 h
            obtain ⟨v, hv, -⟩ := takes_readSetItem f _ _ _ hitem
            exact hgo (u := u ++ v) (by rw [List.append_assoc, ← hv, hu]) h

/-- A set ends in its bracket, whatever it starts with. -/
theorem takes_bracketed (verbose : Bool) : Takes (Settled verbose) (bracketed f) := by
  intro s a r h
  obtain ⟨u, hu⟩ := exists_openSet f s
  obtain ⟨v, hv, hsettled⟩ := takes_readSet f verbose _ _ _ _ a r h
  exact ⟨u ++ v, by rw [List.append_assoc, ← hv, ← hu], hsettled.append_left u⟩

/-! ## Openings -/

/-- Flags are read up to the character that closes them. -/
theorem exists_readFlags {g f' : Flags} {done : List Char} {on : Bool} {s r : List Char}
    (h : readFlags g done on s = some (f', r)) : ∃ u, s = u ++ r := by
  induction s generalizing g done on with
  | nil => cases h
  | cons c rest ih =>
    -- whatever flags the rest is read with, the first character is taken with it
    have hcons : ∀ {g done on}, readFlags g done on rest = some (f', r) →
        ∃ u, c :: rest = u ++ r := by
      intro g done on h
      obtain ⟨u, hu⟩ := ih h
      exact ⟨c :: u, congrArg (c :: ·) hu⟩
    rw [readFlags] at h
    split at h
    · split at h
      · cases h
      · obtain ⟨-, rfl⟩ := Prod.mk.inj (Option.some.inj h)
        exact ⟨[], rfl⟩
    · split at h
      · cases h
      · split at h
        · exact hcons h
        · obtain ⟨g', -, h⟩ := Option.bind_eq_some_iff.1 h
          exact hcons h

/-- The name of a group ends in its bracket. -/
theorem takes_groupName (verbose : Bool) : Takes (Settled verbose) groupName := by
  refine Takes.mapping ?_ _
  intro s a r h
  unfold readGroupName at h
  split at h
  · next hsplit =>
    split at h
    · obtain ⟨-, rfl⟩ := Prod.mk.inj (Option.some.inj h)
      exact takes_splitFirst (by decide) verbose s _ _ hsplit
    · cases h
  · cases h

/-- Flags end in a colon or in a parenthesis. -/
theorem takes_flagged (verbose : Bool) : Takes (Settled verbose) (flagged f) := by
  -- either of the two characters settles what has been read before it
  have hend : ∀ g, Takes (Settled verbose) (flagsEnd g) := by
    intro g s a r h
    cases s with
    | nil => cases h
    | cons c rest =>
      dsimp only [flagsEnd, onHead] at h
      split at h
      · next hcolon =>
        obtain ⟨-, rfl⟩ := Prod.mk.inj (Option.some.inj h)
        exact ⟨[c], rfl, settled_cons (by rw [hcolon]; decide) (clear_nil _)⟩
      · split at h
        · next hparenthesis =>
          obtain ⟨-, rfl⟩ := Prod.mk.inj (Option.some.inj h)
          exact ⟨[c], rfl, settled_cons (by rw [hparenthesis]; decide) (clear_nil _)⟩
        · cases h
  intro s a r h
  cases s with
  | nil => cases h
  | cons c rest =>
    rw [flagged] at h
    split at h
    · cases h
    · have hflags : TakesAny (readFlags f [] true) := fun s g r h => by
        obtain ⟨u, hu⟩ := exists_readFlags h
        exact ⟨u, hu, trivial⟩
      exact hflags.andThen_settled hend _ a r h

/-- An opening that is more than the parenthesis ends in something that closes it. -/
theorem takes_behindMark (verbose : Bool) : Takes (Settled verbose) (behindMark f) := by
  have hrefuse : Takes (Settled verbose) (refuse : Reader Opening) := takes_refuse
  have hname := takes_groupName verbose
  refine hrefuse.onChar_settled (hrefuse.onChar_settled ?_)
  refine Takes.onChar_settled (hrefuse.onChar_settled (hrefuse.onChar_settled hname)) ?_
  exact (hname.onChar_settled hrefuse).onChar_settled (takes_flagged f verbose)

/-- What an opening takes. Only a group without a name or flags can take blanks at its end. -/
theorem exists_taken_of_readOpening {s r : List Char} {o : Opening}
    (h : readOpening f s = some (o, r)) :
    ∃ u, s = u ++ r ∧ Clear f.verbose u ∧ (o = .capture ∨ Settled false u) := by
  rw [readOpening_eq] at h
  obtain ⟨u, hu, hnil⟩ := exists_skip f s
  change onChar '?' (behindMark f) (leave? (some .capture)) (skip f s) = _ at h
  -- a group whose opening goes on behind the parenthesis has a question mark there
  by_cases hmark : ∃ rest, skip f s = '?' :: rest
  · obtain ⟨rest, hrest⟩ := hmark
    rw [hrest, onChar_cons] at h
    obtain ⟨v, rfl, hv⟩ := takes_behindMark f false rest o r h
    have hsettled : Settled false (u ++ '?' :: v) :=
      (hv.append_left ['?']).append_left u
    refine ⟨u ++ '?' :: v, ?_, fun _ => hsettled.2 rfl, Or.inr hsettled⟩
    rw [List.append_assoc, List.cons_append, ← hrest, ← hu]
  · rw [onChar_of_ne fun rest h => hmark ⟨rest, h⟩] at h
    obtain ⟨rfl, rfl⟩ := Prod.mk.inj (Option.some.inj h)
    refine ⟨u, hu, fun hverbose => ?_, Or.inl rfl⟩
    rw [hnil hverbose]
    exact clear_nil _ hverbose

/-! ## Pieces -/

/-- What makes a repetition lazy is a question mark. -/
theorem takes_repetition (verbose : Bool) (min : Nat) (max? : Option Nat) :
    Takes (Clear verbose) (repetition min max?) :=
  (takes_leave? _ _).onChar_clear (by decide) (takes_leave? _ _)

/-- A piece takes something. What it takes ends in a space only if blanks are skipped behind it, or
if the piece is that space. -/
theorem exists_taken {s r : List Char} {p : Piece} (h : readPiece f s = some (p, r)) :
    ∃ u, s = u ++ r ∧ u ≠ [] ∧
      ((∀ below g fs, p.shift (f :: below) = g :: fs → Clear g.verbose u) ∨
        p = .expr (charExpr f ' ')) := by
  cases s with
  | nil => cases h
  | cons c rest =>
    change pieceBehind f c rest = _ at h
    -- what is behind the first character, if that is not a space
    have hbehind : ∀ {u}, c ≠ ' ' → rest = u ++ r →
        (∀ below g fs, p.shift (f :: below) = g :: fs → Clear g.verbose u) →
          ∃ u, c :: rest = u ++ r ∧ u ≠ [] ∧
            ((∀ below g fs, p.shift (f :: below) = g :: fs → Clear g.verbose u) ∨
              p = .expr (charExpr f ' ')) := by
      rintro u hc rfl hu
      exact ⟨c :: u, rfl, List.cons_ne_nil c u,
        Or.inl fun below g fs hshift => (settled_cons hc (hu below g fs hshift)).2⟩
    have hleave : c ≠ ' ' → rest = r →
        ∃ u, c :: rest = u ++ r ∧ u ≠ [] ∧
          ((∀ below g fs, p.shift (f :: below) = g :: fs → Clear g.verbose u) ∨
            p = .expr (charExpr f ' ')) := by
      intro hc hr
      exact hbehind (u := []) hc hr fun _ g _ _ => clear_nil g.verbose
    have hsame : ∀ {u}, Clear f.verbose u → (∀ below, ∃ fs, p.shift (f :: below) = f :: fs) →
        ∀ below g fs, p.shift (f :: below) = g :: fs → Clear g.verbose u := by
      intro u hu hp below g fs hshift
      obtain ⟨fs', hfs'⟩ := hp below
      obtain ⟨rfl, -⟩ := List.cons.inj (hfs'.symm.trans hshift)
      exact hu
    -- one case for each character that a piece can begin with
    unfold pieceBehind at h
    split at h
    · obtain ⟨⟨o, m⟩, hopening, heq⟩ := Option.map_eq_some_iff.1 h
      obtain ⟨rfl, rfl⟩ := Prod.mk.inj heq
      obtain ⟨u, hu, hclear, rfl | hsettled⟩ := exists_taken_of_readOpening f hopening
      · exact hbehind (by decide) hu (hsame hclear fun below => ⟨_, rfl⟩)
      · exact hbehind (by decide) hu fun _ g _ _ => hsettled.2.of_false g.verbose
    · exact hleave (by decide) (Prod.mk.inj (Option.some.inj h)).2
    · exact hleave (by decide) (Prod.mk.inj (Option.some.inj h)).2
    · obtain ⟨⟨set, m⟩, hset, heq⟩ := Option.map_eq_some_iff.1 h
      obtain ⟨rfl, rfl⟩ := Prod.mk.inj heq
      obtain ⟨u, hu, hsettled⟩ := takes_bracketed f false _ _ _ hset
      exact hbehind (by decide) hu fun _ g _ _ => hsettled.2.of_false g.verbose
    · obtain ⟨u, hu, hclear⟩ := takes_repetition false _ _ _ _ _ h
      exact hbehind (by decide) hu fun _ g _ _ => hclear.of_false g.verbose
    · obtain ⟨u, hu, hclear⟩ := takes_repetition false _ _ _ _ _ h
      exact hbehind (by decide) hu fun _ g _ _ => hclear.of_false g.verbose
    · obtain ⟨u, hu, hclear⟩ := takes_repetition false _ _ _ _ _ h
      exact hbehind (by decide) hu fun _ g _ _ => hclear.of_false g.verbose
    · have hrepeat : Takes (Clear f.verbose) (andThen (bounds f) fun p =>
          andThen (skipping f) fun _ => repetition p.1 p.2) :=
        (takes_bounds f _).clear.andThen fun p =>
          (takes_skipping f).andThen fun _ => takes_repetition _ p.1 p.2
      obtain ⟨u, hu, hclear⟩ := hrepeat _ _ _ h
      obtain ⟨q, -, h⟩ := Option.bind_eq_some_iff.1 h
      obtain ⟨greedy, rfl⟩ := eq_again_of_repetition h
      exact hbehind (by decide) hu (hsame hclear fun below => ⟨below, rfl⟩)
    · obtain ⟨⟨a, m⟩, hescape, heq⟩ := Option.map_eq_some_iff.1 h
      obtain ⟨rfl, rfl⟩ := Prod.mk.inj heq
      obtain ⟨u, hu, hne, hclear | ⟨-, rfl⟩⟩ := exists_taken_of_readEscape f hescape
      · exact hbehind (by decide) hu (hsame hclear fun below => ⟨below, rfl⟩)
      · exact ⟨'\\' :: u, congrArg _ hu, List.cons_ne_nil _ u, Or.inr rfl⟩
    · obtain ⟨b, hb, hr⟩ := Option.map_eq_some_iff.1 h
      exact hleave (by decide) (Prod.mk.inj hr).2
    · exact hleave (by decide) (Prod.mk.inj (Option.some.inj h)).2
    · exact hleave (by decide) (Prod.mk.inj (Option.some.inj h)).2
    · obtain ⟨rfl, rfl⟩ := Prod.mk.inj (Option.some.inj h)
      by_cases hc : c = ' '
      · subst hc
        exact ⟨[' '], rfl, List.cons_ne_nil _ _, Or.inr rfl⟩
      · exact hleave hc rfl

end Parts

/-! ## The end of a text -/

/-- No pieces are read from the empty text. -/
theorem spells_nil {fs : List Flags} {ps : List Piece} (h : Spells fs [] ps) : ps = [] := by
  cases h with
  | nil => rfl
  | cons h =>
    have hpiece := h []
    rw [List.nil_append, skip_parenthesis] at hpiece
    have hrest := congrArg List.length (Prod.mk.inj (Option.some.inj hpiece)).2
    simp at hrest

/-- The last piece of a text that ends in a space is that space, if blanks are not skipped at the
end. -/
theorem Spells.exists_push {fs : List Flags} {s : List Char} {ps : List Piece} (h : Spells fs s ps)
    {st e : State} (hst : st.stack = fs) (htake : st.takeAll? ps = some e)
    (hverbose : e.flags.verbose = false) (hlast : s.getLast? = some ' ') :
    ∃ st' : State, e = st'.push (charExpr e.flags ' ') := by
  induction h generalizing st with
  | @nil f below s hskip =>
    obtain rfl := Option.some.inj htake
    obtain ⟨rfl, -⟩ := List.cons.inj hst
    -- no pieces are left, and nothing is skipped: the text is empty
    have hs := hskip []
    rw [skip, hverbose] at hs
    obtain rfl : s = [] := by simpa using hs
    cases hlast
  | @cons f below s r p ps hpiece hrest ih =>
    obtain ⟨rfl, -⟩ := List.cons.inj hst
    obtain ⟨st', hfirst, htake⟩ := Option.bind_eq_some_iff.1 htake
    have hstack := (State.stack_take? hfirst).trans (congrArg p.shift hst)
    obtain ⟨u₀, hu₀, -⟩ := exists_skip st.flags (s ++ [')'])
    obtain ⟨u, hu, hne, hend⟩ := exists_taken st.flags (hpiece [])
    -- the text is what is skipped, what the piece takes and the rest
    obtain rfl : s = u₀ ++ u ++ r := by
      rw [hu, ← List.append_assoc, ← List.append_assoc] at hu₀
      exact List.append_cancel_right hu₀
    -- the last piece ends the text, any other one leaves the end to the rest
    cases r with
    | nil =>
      obtain rfl := spells_nil hrest
      obtain rfl := Option.some.inj htake
      rw [List.append_nil, List.getLast?_append_of_ne_nil _ hne] at hlast
      rcases hend with hclear | rfl
      · exact absurd hlast (hclear _ _ _ hstack.symm hverbose)
      · obtain rfl := Option.some.inj hfirst
        exact ⟨st, rfl⟩
    | cons c r =>
      rw [List.getLast?_append_of_ne_nil _ (List.cons_ne_nil c r)] at hlast
      exact ih hstack htake hlast

end Parley.Regex
