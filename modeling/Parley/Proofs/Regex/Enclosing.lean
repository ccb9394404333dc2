import Parley.Regex.Reader

/-!
# Reading in front of a closing parenthesis

An expression can be read by itself, or inside the parentheses of a longer one where case may be
ignored. Here the parts of the reader are compared in these two places. They do the same, unless the
text ends in a comment of verbose mode: alone, the comment ends with the text; in parentheses it
takes the closing one as well.

The parts are put together from a few ways of reading, and the comparison goes through each of
them. It never looks at the sets of characters that are read, which depend on whether case is
ignored, but only at what is left to read.

Main results:

* `Embeds.andThen`, `embedsAt_onChar` — the comparison goes through one reader after the other, and
  through a choice by the next character;
* `skip_append` — only a comment at the end of a text takes the parenthesis behind it;
* `embeds_digits`, `embeds_bounds` — numbers, and the bounds of counted repetitions.
-/

namespace Parley.Regex

open Text

/-! ## Readers -/

/-- What takes something from the start of a text. -/
abbrev Reader (α : Type) := List Char → Option (α × List Char)

section Reader

variable {α β γ δ : Type}

/-- Whether a reader leaves nothing of nothing. -/
def Stops (R : Reader α) : Prop := ∀ a r, R [] = some (a, r) → r = []

/-- Whether a reader leaves nothing of a text with a closing parenthesis behind it. -/
def Swallows (R : Reader α) (u : List Char) : Prop :=
  ∀ a r, R (u ++ [')']) = some (a, r) → r = []

/-- Whether one reader does with a text in front of a closing parenthesis, whatever follows that,
what another one does with the text alone, with a related value. The only reason not to do so is a
comment of verbose mode in which the text ends. -/
def EmbedsAt (verbose : Bool) (V : α → β → Prop) (R : Reader α) (R' : Reader β) (u : List Char) :
    Prop :=
  ∀ a r, R u = some (a, r) →
    (∃ b, V a b ∧ ∀ t, R' (u ++ ')' :: t) = some (b, r ++ ')' :: t)) ∨
      verbose = true ∧ r = [] ∧ Swallows R' u

/-- Whether this is so for every text. -/
structure Embeds (verbose : Bool) (V : α → β → Prop) (R : Reader α) (R' : Reader β) : Prop where
  embedsAt : ∀ u, EmbedsAt verbose V R R' u
  stops : Stops R
  stops_right : Stops R'

/-- One reader after the other, which may depend on what the first has taken. -/
def andThen (R : Reader α) (S : α → Reader γ) : Reader γ := fun s => (R s).bind fun p => S p.1 p.2

/-- Taking nothing; there may be no value. -/
def leave? (a? : Option α) : Reader α := fun s => a?.map fun a => (a, s)

/-- Taking one character, and going on as it says. -/
def onHead (S : Char → Reader α) : Reader α
  | [] => none
  | c :: rest => S c rest

/-- Taking a character if it comes next, and doing something else otherwise. -/
def onChar (c : Char) (R S : Reader α) : Reader α
  | [] => S []
  | d :: rest => if d = c then R rest else S (d :: rest)

/-- Where the character comes next, it is taken. -/
theorem onChar_cons (c : Char) (R S : Reader α) (rest : List Char) :
    onChar c R S (c :: rest) = R rest := if_pos rfl

/-- Where it does not come next, nothing is taken, and the other reader begins. -/
theorem onChar_of_ne {c : Char} {s : List Char} (h : ∀ rest, s = c :: rest → False)
    (R S : Reader α) : onChar c R S s = S s := by
  cases s with
  | nil => rfl
  | cons d rest => exact if_neg fun hd => h rest (by rw [hd])

variable {v : Bool} {V : α → β → Prop} {W : γ → δ → Prop} {R : Reader α} {R' : Reader β}
  {u r : List Char} {a : α}

/-- A reader that leaves something has not come to the end of the text. -/
theorem EmbedsAt.keeps (h : EmbedsAt v V R R' u) (hu : R u = some (a, r)) (hr : r ≠ []) :
    ∃ b, V a b ∧ ∀ t, R' (u ++ ')' :: t) = some (b, r ++ ')' :: t) := by
  rcases h a r hu with hkeeps | ⟨-, hnil, -⟩
  · exact hkeeps
  · exact absurd hnil hr

/-- Readers may be taken for others that do the same with the text. -/
theorem EmbedsAt.of_eq {S : Reader α} {S' : Reader β} {u' : List Char}
    (h : EmbedsAt v V S S' u') (hleft : R u = S u')
    (hright : ∀ t, R' (u ++ ')' :: t) = S' (u' ++ ')' :: t)) : EmbedsAt v V R R' u := by
  intro a r ha
  rcases h a r (hleft.symm.trans ha) with ⟨b, hV, hkeeps⟩ | ⟨hverbose, hr, hswallows⟩
  · exact Or.inl ⟨b, hV, fun t => (hright t).trans (hkeeps t)⟩
  · exact Or.inr ⟨hverbose, hr, fun b r' h' => hswallows b r' ((hright []).symm.trans h')⟩

/-- **The comparison goes through one reader after the other.** If the first one has come to a
comment at the end of the text, nothing is left for the second one in either place. -/
theorem EmbedsAt.andThen {S : α → Reader γ} {S' : β → Reader δ} (hR : EmbedsAt v V R R' u)
    (hS : ∀ a b m, V a b → R u = some (a, m) → EmbedsAt v W (S a) (S' b) m)
    (hstops : ∀ a, Stops (S a)) (hstops' : ∀ b, Stops (S' b)) :
    EmbedsAt v W (andThen R S) (andThen R' S') u := by
  intro c r h
  obtain ⟨⟨a, m⟩, ha, hc⟩ := Option.bind_eq_some_iff.1 h
  rcases hR a m ha with ⟨b, hV, hkeeps⟩ | ⟨hverbose, rfl, hswallows⟩
  · -- the first has left as much in both places, and the second decides
    have hfirst : ∀ t, Regex.andThen R' S' (u ++ ')' :: t) = S' b (m ++ ')' :: t) := by
      intro t
      rw [Regex.andThen, hkeeps t]
      rfl
    rcases hS a b m hV ha c r hc with ⟨d, hW, hkeeps'⟩ | ⟨hverbose, hr, hswallows⟩
    · exact Or.inl ⟨d, hW, fun t => (hfirst t).trans (hkeeps' t)⟩
    · exact Or.inr ⟨hverbose, hr, fun d r' h' => hswallows d r' ((hfirst []).symm.trans h')⟩
  · -- what comes second has nothing to read in both places
    refine Or.inr ⟨hverbose, hstops a c r hc, fun c' r' h' => ?_⟩
    obtain ⟨⟨b, m'⟩, hb, hc'⟩ := Option.bind_eq_some_iff.1 h'
    obtain rfl := hswallows b m' hb
    exact hstops' b c' r' hc'

/-- Of nothing, two readers leave nothing if each of them leaves nothing. -/
theorem Stops.andThen {S : α → Reader γ} (hR : Stops R) (hS : ∀ a, Stops (S a)) :
    Stops (andThen R S) := by
  intro c r h
  obtain ⟨⟨a, m⟩, ha, hc⟩ := Option.bind_eq_some_iff.1 h
  obtain rfl := hR a m ha
  exact hS a c r hc

/-- The same for all texts at once. -/
theorem Embeds.andThen {S : α → Reader γ} {S' : β → Reader δ} (hR : Embeds v V R R')
    (hS : ∀ a b, V a b → Embeds v W (S a) (S' b)) (hstops : ∀ a, Stops (S a))
    (hstops' : ∀ b, Stops (S' b)) : Embeds v W (andThen R S) (andThen R' S') where
  embedsAt u := (hR.embedsAt u).andThen (fun a b m hV _ => (hS a b hV).embedsAt m) hstops hstops'
  stops := hR.stops.andThen hstops
  stops_right := hR.stops_right.andThen hstops'

/-- The second reader does not depend on where it is. -/
theorem Embeds.andThen_of_eq {R R' : Reader α} {S : α → Reader γ} {S' : α → Reader δ}
    (hR : Embeds v Eq R R') (hS : ∀ a, Embeds v W (S a) (S' a)) :
    Embeds v W (Regex.andThen R S) (Regex.andThen R' S') := by
  refine hR.andThen ?_ (fun a => (hS a).stops) fun a => (hS a).stops_right
  rintro a _ rfl
  exact hS a

/-- What takes nothing leaves what there was. -/
theorem stops_leave? (a? : Option α) : Stops (leave? a?) := by
  intro b r h
  obtain ⟨a, rfl, hr⟩ := Option.map_eq_some_iff.1 h
  exact (Prod.mk.inj hr).2.symm

/-- Two values that may be missing are related, and neither is missing without the other. -/
theorem embeds_leave? (v : Bool) {a? : Option α} {b? : Option β} (h : Option.Rel V a? b?) :
    Embeds v V (leave? a?) (leave? b?) where
  embedsAt u := by
    intro a r ha
    cases h with
    | none => cases ha
    | @some a b hV =>
      obtain ⟨rfl, rfl⟩ := Prod.mk.inj (Option.some.inj ha)
      exact Or.inl ⟨b, hV, fun t => rfl⟩
  stops := stops_leave? a?
  stops_right := stops_leave? b?

/-- What takes nothing does the same in both places. -/
theorem embeds_leave?_self (v : Bool) (a? : Option α) : Embeds v Eq (leave? a?) (leave? a?) := by
  refine embeds_leave? v ?_
  cases a? with
  | none => exact .none
  | some a => exact .some rfl

/-- Values that are related are also related in a weaker way. -/
theorem Embeds.imp {V' : α → β → Prop} (hR : Embeds v V R R') (hV : ∀ a b, V a b → V' a b) :
    Embeds v V' R R' where
  embedsAt u := fun a r ha =>
    (hR.embedsAt u a r ha).imp_left fun ⟨b, hab, hkeeps⟩ => ⟨b, hV a b hab, hkeeps⟩
  stops := hR.stops
  stops_right := hR.stops_right

/-- Taking any character is the same in both places if this is so of what follows each character.
The parenthesis itself is never reached, since a text with nothing left has no value. -/
theorem embeds_onHead {S : Char → Reader α} {S' : Char → Reader β}
    (h : ∀ c u, EmbedsAt v V (S c) (S' c) u) : Embeds v V (onHead S) (onHead S') where
  embedsAt u := by
    intro a r ha
    cases u with
    | nil => cases ha
    | cons c u => exact h c u a r ha
  stops := by
    intro a r ha
    cases ha
  stops_right := by
    intro a r ha
    cases ha

/-- **The comparison goes through a choice by the next character,** unless this is the parenthesis.
-/
theorem embedsAt_onChar {c : Char} (hc : c ≠ ')') {S : Reader α} {S' : Reader β}
    (hR : ∀ u, EmbedsAt v V R R' u) (hS : EmbedsAt v V S S' u) :
    EmbedsAt v V (onChar c R S) (onChar c R' S') u := by
  cases u with
  | nil =>
    -- the parenthesis itself is not the character
    exact hS.of_eq rfl fun t => if_neg (Ne.symm hc)
  | cons d u =>
    by_cases hd : d = c
    · exact (hR u).of_eq (if_pos hd) fun t => if_pos hd
    · exact hS.of_eq (if_neg hd) fun t => if_neg hd

/-- The same for all texts at once. -/
theorem embeds_onChar {c : Char} (hc : c ≠ ')') {S : Reader α} {S' : Reader β}
    (hR : ∀ u, EmbedsAt v V R R' u) (hS : Embeds v V S S') :
    Embeds v V (onChar c R S) (onChar c R' S') where
  embedsAt u := embedsAt_onChar hc hR (hS.embedsAt u)
  stops := hS.stops
  stops_right := hS.stops_right

/-- A condition that does not depend on the text may choose the reader. -/
theorem embeds_ite {p : Prop} [Decidable p] {S : Reader α} {S' : Reader β}
    (hR : Embeds v V R R') (hS : Embeds v V S S') :
    Embeds v V (if p then R else S) (if p then R' else S') := by
  by_cases hp : p
  · rw [if_pos hp, if_pos hp]
    exact hR
  · rw [if_neg hp, if_neg hp]
    exact hS

/-- A reader with something made of its value. -/
def mapping {α' : Type} (h : α → α') (R : Reader α) : Reader α' := fun s =>
  (R s).map fun p => (h p.1, p.2)

/-- What is made of the values does not matter to what is read. -/
theorem EmbedsAt.mapping {α' β' : Type} {V' : α' → β' → Prop} {h : α → α'} {k : β → β'}
    (hR : EmbedsAt v V R R' u) (hV : ∀ a b, V a b → V' (h a) (k b)) :
    EmbedsAt v V' (mapping h R) (mapping k R') u := by
  intro a r ha
  obtain ⟨⟨a, m⟩, hm, heq⟩ := Option.map_eq_some_iff.1 ha
  obtain ⟨rfl, rfl⟩ := Prod.mk.inj heq
  rcases hR a m hm with ⟨b, hab, hkeeps⟩ | ⟨hverbose, hr, hswallows⟩
  · exact Or.inl ⟨k b, hV a b hab, fun t => by rw [Regex.mapping, hkeeps t]; rfl⟩
  · refine Or.inr ⟨hverbose, hr, fun b r' h' => ?_⟩
    obtain ⟨⟨b, m'⟩, hm', heq'⟩ := Option.map_eq_some_iff.1 h'
    obtain ⟨-, rfl⟩ := Prod.mk.inj heq'
    exact hswallows b m' hm'

/-- Nor to what is left of nothing. -/
theorem Stops.mapping {α' : Type} (h : α → α') (hR : Stops R) : Stops (mapping h R) := by
  intro a r ha
  obtain ⟨⟨a, m⟩, hm, heq⟩ := Option.map_eq_some_iff.1 ha
  obtain ⟨-, rfl⟩ := Prod.mk.inj heq
  exact hR a m hm

/-- The same for all texts at once. -/
theorem Embeds.mapping {α' β' : Type} {V' : α' → β' → Prop} {h : α → α'} {k : β → β'}
    (hR : Embeds v V R R') (hV : ∀ a b, V a b → V' (h a) (k b)) :
    Embeds v V' (mapping h R) (mapping k R') where
  embedsAt u := (hR.embedsAt u).mapping hV
  stops := hR.stops.mapping h
  stops_right := hR.stops_right.mapping k

/-- A reader that always fails. -/
def refuse : Reader α := fun _ => none

/-- What always fails has nothing to compare. -/
theorem embeds_refuse (v : Bool) : Embeds v V refuse refuse where
  embedsAt u := by
    intro a r ha
    cases ha
  stops := by
    intro a r ha
    cases ha
  stops_right := by
    intro a r ha
    cases ha

end Reader

/-! ## Blanks, comments and digits -/

/-- Whether flags differ at most in whether case is ignored. -/
def Flags.Alike (f g : Flags) : Prop := ∃ b, g = { f with ignoreCase := b }

/-- Flags are like themselves. -/
theorem Flags.Alike.refl (f : Flags) : f.Alike f := ⟨f.ignoreCase, rfl⟩

/-- In verbose mode, skipping stops in front of the parenthesis, or a comment takes all of the text
and the parenthesis with it. -/
theorem skipVerbose_append (inComment : Bool) (u : List Char) :
    (∀ t, skipVerbose inComment (u ++ ')' :: t) = skipVerbose inComment u ++ ')' :: t) ∨
      skipVerbose inComment u = [] ∧ skipVerbose inComment (u ++ [')']) = [] := by
  have hblank : isBlank ')' = false := by decide
  -- induction on the text; in a comment, only the end of the line matters
  induction u generalizing inComment with
  | nil =>
    cases inComment with
    | true => exact Or.inr ⟨rfl, by simp [skipVerbose]⟩
    | false => exact Or.inl fun t => by simp [skipVerbose, hblank]
  | cons c v ih =>
    rw [skipVerbose]
    by_cases hcomment : inComment = true
    · rw [if_pos hcomment]
      simpa [skipVerbose, hcomment] using ih (c != '\n')
    · rw [if_neg hcomment]
      by_cases hc : isBlank c = true
      · simpa [skipVerbose, hcomment, hc] using ih false
      · by_cases hsharp : (c == '#') = true
        · simpa [skipVerbose, hcomment, hc, hsharp] using ih true
        · -- skipping has come to its end
          refine Or.inl fun t => ?_
          simp [skipVerbose, hcomment, hc, hsharp]

/-- Only a comment at the end of a text takes the parenthesis behind it. -/
theorem skip_append (f : Flags) (u : List Char) :
    (∀ t, skip f (u ++ ')' :: t) = skip f u ++ ')' :: t) ∨
      f.verbose = true ∧ skip f u = [] ∧ skip f (u ++ [')']) = [] := by
  unfold skip
  split
  · next hverbose => exact (skipVerbose_append false u).imp_right fun h => ⟨hverbose, h⟩
  · exact Or.inl fun t => rfl

/-- Where something is left after skipping, the parenthesis is left behind it. -/
theorem skip_append_of_ne_nil {f : Flags} {u : List Char} (h : skip f u ≠ []) (t : List Char) :
    skip f (u ++ ')' :: t) = skip f u ++ ')' :: t := by
  rcases skip_append f u with hkeeps | ⟨-, hnil, -⟩
  · exact hkeeps t
  · exact absurd hnil h

/-- There is nothing to skip in nothing. -/
@[simp] theorem skip_nil (f : Flags) : skip f [] = [] := by
  unfold skip
  split <;> rfl

section Parts

variable {f g : Flags}

/-- Skipping blanks and comments. -/
def skipping (f : Flags) : Reader Unit := fun s => some ((), skip f s)

/-- Skipping leaves nothing of nothing. -/
theorem stops_skipping (f : Flags) : Stops (skipping f) := by
  intro a r h
  obtain ⟨-, rfl⟩ := Prod.mk.inj (Option.some.inj h)
  exact skip_nil f

/-- **Skipping is the one reader that can fail the comparison,** by a comment at the end. -/
theorem embeds_skipping (halike : f.Alike g) : Embeds f.verbose Eq (skipping f) (skipping g) where
  embedsAt u := by
    obtain ⟨b, rfl⟩ := halike
    intro a r h
    obtain ⟨-, rfl⟩ := Prod.mk.inj (Option.some.inj h)
    rcases skip_append f u with hkeeps | ⟨hverbose, hnil, hswallows⟩
    · exact Or.inl ⟨a, rfl, fun t => congrArg (fun s => some ((), s)) (hkeeps t)⟩
    · refine Or.inr ⟨hverbose, hnil, fun a' r' h' => ?_⟩
      obtain ⟨-, rfl⟩ := Prod.mk.inj (Option.some.inj h')
      exact hswallows
  stops := stops_skipping f
  stops_right := stops_skipping g

/-- Dropping blanks. -/
def dropping : Reader Unit := fun s => some ((), s.dropWhile isBlank)

/-- Blanks are dropped up to the parenthesis, which is none. -/
theorem dropWhile_isBlank_append (u t : List Char) :
    (u ++ ')' :: t).dropWhile isBlank = u.dropWhile isBlank ++ ')' :: t := by
  have hblank : isBlank ')' = false := by decide
  induction u with
  | nil => simp [hblank]
  | cons c v ih =>
    rw [List.cons_append, List.dropWhile_cons, List.dropWhile_cons]
    split
    · exact ih
    · rfl

/-- Dropping blanks is the same in both places. -/
theorem embeds_dropping (v : Bool) : Embeds v Eq dropping dropping where
  embedsAt u := by
    intro a r h
    obtain ⟨-, rfl⟩ := Prod.mk.inj (Option.some.inj h)
    exact Or.inl ⟨a, rfl, fun t => congrArg (fun s => some ((), s)) (dropWhile_isBlank_append u t)⟩
  stops := by
    intro a r h
    exact (Prod.mk.inj (Option.some.inj h)).2.symm
  stops_right := by
    intro a r h
    exact (Prod.mk.inj (Option.some.inj h)).2.symm

/-- Reading digits, of which there may be none. -/
def digits (f : Flags) (isDigit : Char → Bool) : Reader (List Char) := fun s =>
  some (readDigits f isDigit s)

/-- Of nothing, no digits are taken. -/
theorem stops_digits (f : Flags) (isDigit : Char → Bool) : Stops (digits f isDigit) := by
  intro a r h
  rw [digits, readDigits] at h
  exact (Prod.mk.inj (Option.some.inj h)).2.symm

/-- In front of a character that is no digit, no digits are taken. -/
theorem digits_of_not (f : Flags) {isDigit : Char → Bool} {c : Char} (hc : isDigit c = false)
    (rest : List Char) : digits f isDigit (c :: rest) = leave? (some []) (c :: rest) := by
  rw [digits, readDigits, hc]
  rfl

/-- A digit is taken, blanks and comments are skipped, and more digits may follow. -/
theorem digits_of_isDigit (f : Flags) {isDigit : Char → Bool} {c : Char} (hc : isDigit c = true)
    (rest : List Char) :
    digits f isDigit (c :: rest) =
      andThen (skipping f) (fun _ =>
        andThen (digits f isDigit) fun ds => leave? (some (c :: ds))) rest := by
  rw [digits, readDigits, hc]
  rfl

/-- **Digits are the same in both places,** if the parenthesis is no digit. -/
theorem embeds_digits (halike : f.Alike g) {isDigit : Char → Bool} (hstop : isDigit ')' = false) :
    Embeds f.verbose Eq (digits f isDigit) (digits g isDigit) where
  embedsAt u := by
    -- induction on the length, because blanks are skipped between digits
    induction hlength : u.length using Nat.strongRecOn generalizing u with
    | _ n ih =>
      subst hlength
      have hnone := @embeds_leave? (List Char) _ Eq f.verbose _ _ (.some (Eq.refl []))
      cases u with
      | nil =>
        refine (hnone.embedsAt []).of_eq ?_ (digits_of_not g hstop)
        rw [digits, readDigits]
        rfl
      | cons c v =>
        cases hc : isDigit c with
        | false => exact (hnone.embedsAt (c :: v)).of_eq (digits_of_not f hc v) fun t =>
            digits_of_not g hc _
        | true =>
          refine EmbedsAt.of_eq ?_ (digits_of_isDigit f hc v) fun t => digits_of_isDigit g hc _
          refine ((embeds_skipping halike).embedsAt v).andThen ?_
            (fun _ => (stops_digits f isDigit).andThen fun _ => stops_leave? _)
            (fun _ => (stops_digits g isDigit).andThen fun _ => stops_leave? _)
          rintro _ _ m - hm
          obtain ⟨-, rfl⟩ := Prod.mk.inj (Option.some.inj hm)
          have hlength := length_skip f v
          refine (ih _ ?_ (skip f v) rfl).andThen ?_ (fun _ => stops_leave? _)
            fun _ => stops_leave? _
          · rw [List.length_cons]
            omega
          · rintro ds _ _ rfl -
            exact (embeds_leave? f.verbose (.some rfl)).embedsAt _
  stops := stops_digits f isDigit
  stops_right := stops_digits g isDigit

/-! ## Counted repetitions -/

/-- The value of digits, which is missing if there are none. -/
def decimal? (ds : List Char) : Option (Option Nat) :=
  if ds.isEmpty then some none
  else if numberOf 10 ds < UInt32.size then some (some (numberOf 10 ds)) else none

/-- A number in decimal digits, put together from the readers above. -/
theorem readDecimal_eq (f : Flags) :
    readDecimal f =
      andThen dropping fun _ => andThen (digits f Char.isDigit) fun ds =>
        andThen dropping fun _ => andThen (skipping f) fun _ => leave? (decimal? ds) := by
  funext s
  -- the readers in between cannot fail, so that only the value of the digits is left
  show readDecimal f s = (decimal? _).map _
  unfold readDecimal decimal?
  dsimp only
  split
  · rfl
  · split <;> rfl

/-- Numbers are the same in both places. -/
theorem embeds_readDecimal (halike : f.Alike g) :
    Embeds f.verbose Eq (readDecimal f) (readDecimal g) := by
  rw [readDecimal_eq, readDecimal_eq]
  refine (embeds_dropping _).andThen_of_eq fun _ => ?_
  refine (embeds_digits halike (by decide)).andThen_of_eq fun ds => ?_
  refine (embeds_dropping _).andThen_of_eq fun _ => ?_
  exact (embeds_skipping halike).andThen_of_eq fun _ => embeds_leave?_self _ _

/-- Reading the bounds of a repetition. -/
def bounds (f : Flags) : Reader (Nat × Option Nat) :=
  andThen (skipping f) fun _ => andThen (readDecimal f) fun first? =>
    onChar ','
      (andThen (skipping f) fun _ =>
        onChar '\x7d' (leave? (first?.map fun first => (first, none)))
          (andThen (leave? first?) fun first => andThen (readDecimal f) fun last? =>
            andThen (leave? last?) fun last =>
              onChar '\x7d' (leave? (if first ≤ last then some (first, some last) else none))
                refuse))
      (onChar '\x7d' (leave? (first?.map fun first => (first, some first))) refuse)

/-- The bounds of a counted repetition, put together from the readers above: one number, one number
and a comma, or two numbers in ascending order. -/
theorem readBounds_eq (f : Flags) (s : List Char) :
    readBounds f s = (bounds f s).map fun p => (p.1.1, p.1.2, p.2) := by
  show readBounds f s = ((readDecimal f (skip f s)).bind _).map _
  unfold readBounds
  cases readDecimal f (skip f s) with
  | none => rfl
  | some p =>
    obtain ⟨first?, m⟩ := p
    dsimp only [bind, Option.bind_some]
    -- behind the first number there is a comma, a brace, or anything else
    split
    · next m =>
      rw [onChar_cons]
      show _ = (onChar '\x7d' _ _ (skip f m)).map _
      split
      · next hm =>
        rw [hm, onChar_cons]
        cases first? <;> rfl
      · next hm =>
        rw [onChar_of_ne hm]
        cases first? with
        | none => rfl
        | some first =>
          show (readDecimal f (skip f m)).bind _ = ((readDecimal f (skip f m)).bind _).map _
          cases readDecimal f (skip f m) with
          | none => rfl
          | some p =>
            obtain ⟨last?, m'⟩ := p
            cases last? with
            | none => rfl
            | some last =>
              show _ = (onChar '\x7d' _ _ m').map _
              dsimp only [Option.bind_some]
              split
              · next m' =>
                rw [onChar_cons]
                split <;> rfl
              · next hm' =>
                rw [onChar_of_ne hm']
                rfl
    · next m =>
      cases first? <;> rfl
    · next hcomma hbrace =>
      rw [onChar_of_ne hcomma, onChar_of_ne hbrace]
      rfl

/-- **The bounds of counted repetitions are the same in both places.** -/
theorem embeds_bounds (halike : f.Alike g) : Embeds f.verbose Eq (bounds f) (bounds g) := by
  -- the comparison follows the way in which the bounds are put together
  have hbrace : '\x7d' ≠ ')' := by decide
  refine (embeds_skipping halike).andThen_of_eq fun _ => ?_
  refine (embeds_readDecimal halike).andThen_of_eq fun first? => ?_
  refine embeds_onChar (by decide) (Embeds.embedsAt ?_) ?_
  · refine (embeds_skipping halike).andThen_of_eq fun _ => ?_
    refine embeds_onChar hbrace (embeds_leave?_self _ _).embedsAt ?_
    refine (embeds_leave?_self _ _).andThen_of_eq fun first => ?_
    refine (embeds_readDecimal halike).andThen_of_eq fun last? => ?_
    refine (embeds_leave?_self _ _).andThen_of_eq fun last => ?_
    exact embeds_onChar hbrace (embeds_leave?_self _ _).embedsAt (embeds_refuse _)
  · exact embeds_onChar hbrace (embeds_leave?_self _ _).embedsAt (embeds_refuse _)

end Parts

end Parley.Regex
