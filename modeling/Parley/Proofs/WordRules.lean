import Parley.Proofs.Combining
import Parley.Proofs.Regex.Literals

/-!
# Substitutions of words

A literal whose pattern has a space at each end and single spaces between its words is a rule for
words. What its expression takes from the working text are words that are those of the pattern in
some case, each with its own spaces.

Main results:

* `Substitution.rewrite` — the rewriting of words by rules;
* `Substitution.IsWordRule.exists_words` and `Substitution.IsWordRule.takenByAll` — what the
  expression of a rule takes.
-/

namespace Parley

open Text

/-- Words: none of them is empty or has a blank. -/
def Text.AreWords (ws : List (List Char)) : Prop :=
  ∀ w ∈ ws, w ≠ [] ∧ ∀ c ∈ w, isBlank c = false

theorem Text.areWords_breakWords (text : List Char) : AreWords (breakWords text) := fun _ hw =>
  ⟨ne_nil_of_mem_breakWords hw, fun _ hc => not_isBlank_of_mem_breakWords hw hc⟩

/-! ## Rules -/

namespace Substitution

/-- The words of a pattern. -/
def patternWords (s : Substitution) : List (List Char) := breakWords s.pattern.toList

/-- Literals for words: the pattern has a space at each end, and without the blanks there it is its
words with single spaces between them. -/
structure IsWordRule (s : Substitution) : Prop where
  kind : s.kind = .literal
  first : s.pattern.toList.head? = some ' '
  last : s.pattern.toList.getLast? = some ' '
  single : strip s.pattern.toList = joinWords s.patternWords
  words : s.patternWords ≠ []

instance (s : Substitution) : Decidable s.IsWordRule :=
  decidable_of_iff
    (s.kind = .literal ∧ s.pattern.toList.head? = some ' ' ∧ s.pattern.toList.getLast? = some ' ' ∧
      strip s.pattern.toList = joinWords s.patternWords ∧ s.patternWords ≠ [])
    ⟨fun ⟨hkind, hfirst, hlast, hsingle, hwords⟩ => ⟨hkind, hfirst, hlast, hsingle, hwords⟩,
      fun ⟨hkind, hfirst, hlast, hsingle, hwords⟩ => ⟨hkind, hfirst, hlast, hsingle, hwords⟩⟩

/-- Whether two lists of words differ in case at most. -/
def SameWords (vs us : List (List Char)) : Prop :=
  vs.map (List.map foldChar) = us.map (List.map foldChar)

instance (vs us : List (List Char)) : Decidable (SameWords vs us) :=
  inferInstanceAs (Decidable (_ = _))

/-- Whether the words of a pattern come next. -/
def Applies (s : Substitution) (ws : List (List Char)) : Prop :=
  SameWords s.patternWords (ws.take s.patternWords.length)

instance (s : Substitution) (ws : List (List Char)) : Decidable (s.Applies ws) :=
  inferInstanceAs (Decidable (SameWords _ _))

/-- Rewrites words from left to right: where the pattern of an item comes next, the first such item
puts the words of its replacement in the place of those of its pattern; otherwise the next word
stays. -/
def rewrite (items : List Substitution) : List (List Char) → List (List Char)
  | [] => []
  | w :: ws =>
    match items.find? fun s => s.Applies (w :: ws) with
    | some s =>
      breakWords s.replacement.toList ++ rewrite items (ws.drop (s.patternWords.length - 1))
    | none => w :: rewrite items ws
termination_by ws => ws.length
decreasing_by
  · simp only [List.length_drop, List.length_cons]
    omega
  · simp

theorem rewrite_of_some {items : List Substitution} {s : Substitution} {us rest : List (List Char)}
    (h : items.find? (fun s => s.Applies (us ++ rest)) = some s) (hne : us ≠ [])
    (hlength : us.length = s.patternWords.length) :
    rewrite items (us ++ rest) = breakWords s.replacement.toList ++ rewrite items rest := by
  obtain ⟨w, us, rfl⟩ := List.exists_cons_of_ne_nil hne
  rw [List.cons_append] at h ⊢
  rw [rewrite, h]
  dsimp only
  rw [← hlength, List.length_cons, Nat.add_sub_cancel, List.drop_left]

theorem rewrite_of_none {items : List Substitution} {w : List Char} {ws : List (List Char)}
    (h : items.find? (fun s => s.Applies (w :: ws)) = none) :
    rewrite items (w :: ws) = w :: rewrite items ws := by
  rw [rewrite, h]

end Substitution

/-! ## Words and parts -/

namespace Regex

/-- The parts for words behind a space: there may be any number of spaces between them, and there is
one behind them. -/
def partsBehind : List (List Char) → List Regex
  | [] => []
  | [w] => w.map (charExpr caseless) ++ [charExpr caseless ' ']
  | w :: v :: vs =>
    w.map (charExpr caseless) ++
      .repeated (charExpr caseless ' ') 1 none true :: partsBehind (v :: vs)

theorem literalPart_of_ne {c : Char} (hc : c ≠ ' ') :
    literalPart caseless c = charExpr caseless c := by
  rw [literalPart, if_neg (by simpa using hc)]

theorem ne_space_of_isBlank {c : Char} (hc : isBlank c = false) : c ≠ ' ' := by
  rintro rfl
  exact absurd hc (by decide)

/-- The parts of words with single spaces between them, and a space behind them. -/
theorem map_literalPart_joinWords {vs : List (List Char)} (hne : vs ≠ [])
    (hvs : AreWords vs) :
    (joinWords vs).map (literalPart caseless) ++ [charExpr caseless ' '] = partsBehind vs := by
  have hword : ∀ {w}, w ∈ vs → w.map (literalPart caseless) = w.map (charExpr caseless) :=
    fun {w} hw => List.map_congr_left fun c hc =>
      literalPart_of_ne (ne_space_of_isBlank ((hvs w hw).2 c hc))
  induction vs with
  | nil => exact absurd rfl hne
  | cons w vs ih =>
    cases vs with
    | nil => rw [joinWords, partsBehind, hword List.mem_cons_self]
    | cons v vs =>
      have hrest := ih (List.cons_ne_nil v vs) (fun u hu => hvs u (List.mem_cons_of_mem w hu))
        fun {u} hu => hword (List.mem_cons_of_mem w hu)
      rw [joinWords, partsBehind, List.map_append, List.map_cons, List.append_assoc,
        List.cons_append, hrest, hword List.mem_cons_self]
      rfl

theorem exists_of_takenBy_charExpr {c : Char} {u : List Char}
    (h : TakenBy (charExpr caseless c) u) : ∃ d, u = [d] ∧ foldChar d = foldChar c := by
  generalize hr : charExpr caseless c = r at h
  cases h with
  | @one c' d hd =>
    obtain rfl : c = c' := by simpa [charExpr, caseless] using hr
    exact ⟨d, rfl, hd⟩
  | many hne hu => cases hr

theorem spaces_of_takenBy_repeated {u : List Char}
    (h : TakenBy (.repeated (charExpr caseless ' ') 1 none true) u) :
    u ≠ [] ∧ ∀ d ∈ u, d = ' ' := by
  generalize hr : Regex.repeated (charExpr caseless ' ') 1 none true = r at h
  cases h with
  | one hd => cases hr
  | many hne hu => exact ⟨hne, hu⟩

/-- The characters of a word take a word that is the same in another case. -/
theorem exists_of_takenByAll_word {w : List Char} {rs : List Regex} {u : List Char}
    (h : TakenByAll (w.map (charExpr caseless) ++ rs) u) :
    ∃ y v, u = y ++ v ∧ w.map foldChar = y.map foldChar ∧ TakenByAll rs v := by
  induction w generalizing u with
  | nil => exact ⟨[], u, rfl, rfl, h⟩
  | cons c w ih =>
    cases h with
    | cons hc h =>
      obtain ⟨d, rfl, hd⟩ := exists_of_takenBy_charExpr hc
      obtain ⟨y, v, rfl, hy, hv⟩ := ih h
      exact ⟨d :: y, v, rfl, by rw [List.map_cons, List.map_cons, hd, hy], hv⟩

theorem takenByAll_word {w y : List Char} (hy : w.map foldChar = y.map foldChar) {rs : List Regex}
    {v : List Char} (h : TakenByAll rs v) :
    TakenByAll (w.map (charExpr caseless) ++ rs) (y ++ v) := by
  induction w generalizing y with
  | nil =>
    obtain rfl : y = [] := by simpa using hy.symm
    exact h
  | cons c w ih =>
    cases y with
    | nil => cases hy
    | cons d y =>
      obtain ⟨hd, hy⟩ := List.cons.inj hy
      show TakenByAll _ ([d] ++ (y ++ v))
      exact .cons (.one hd.symm) (ih hy)

/-- What is the same as a word in another case has no spaces. -/
theorem ne_space_of_map_foldChar {w y : List Char} (hw : ∀ c ∈ w, isBlank c = false)
    (h : w.map foldChar = y.map foldChar) : ∀ d ∈ y, d ≠ ' ' := by
  rintro d hd rfl
  obtain ⟨c, hc, hfold⟩ := List.mem_map.1 (h ▸ List.mem_map_of_mem (f := foldChar) hd)
  exact ne_space_of_isBlank (hw c hc) (foldChar_eq_iff_space.1 hfold)

/-- Texts are the same up to their first space. -/
theorem append_space_inj {x y s t : List Char} (hx : ∀ d ∈ x, d ≠ ' ') (hy : ∀ d ∈ y, d ≠ ' ')
    (h : x ++ ' ' :: s = y ++ ' ' :: t) : x = y ∧ s = t := by
  induction x generalizing y with
  | nil =>
    cases y with
    | nil => exact ⟨rfl, (List.cons.inj h).2⟩
    | cons d y => exact absurd (List.cons.inj h).1.symm (hy d List.mem_cons_self)
  | cons c x ih =>
    cases y with
    | nil => exact absurd (List.cons.inj h).1 (hx c List.mem_cons_self)
    | cons d y =>
      rw [List.cons_append, List.cons_append] at h
      obtain ⟨hcd, hrest⟩ := List.cons.inj h
      obtain ⟨hxy, hst⟩ := ih (fun e he => hx e (List.mem_cons_of_mem c he))
        (fun e he => hy e (List.mem_cons_of_mem d he)) hrest
      exact ⟨by rw [hcd, hxy], hst⟩

/-- Spaces in front of something else are as many as there are. -/
theorem eq_of_spaces_append {k s t : List Char} {d e : Char} (hk : ∀ c ∈ k, c = ' ') (hd : d ≠ ' ')
    (he : e ≠ ' ') (h : k ++ d :: s = ' ' :: e :: t) : k = [' '] ∧ d :: s = e :: t := by
  rcases k with _ | ⟨c, _ | ⟨c', k⟩⟩
  · exact absurd (List.cons.inj h).1 hd
  · obtain ⟨rfl, hrest⟩ := List.cons.inj h
    exact ⟨rfl, hrest⟩
  · obtain ⟨-, hrest⟩ := List.cons.inj h
    exact absurd ((List.cons.inj hrest).1.symm.trans (hk c' (by simp))) he

/-- What the parts for words take begins with the start of a word. -/
theorem exists_head_of_takenByAll_partsBehind {vs : List (List Char)} (hne : vs ≠ [])
    (hvs : AreWords vs) {u : List Char}
    (h : TakenByAll (partsBehind vs) u) : ∃ d u', u = d :: u' ∧ d ≠ ' ' := by
  obtain ⟨w, vs, rfl⟩ := List.exists_cons_of_ne_nil hne
  obtain ⟨⟨hwne, hw⟩, -⟩ := List.forall_mem_cons.1 hvs
  obtain ⟨rs, hrs⟩ : ∃ rs, partsBehind (w :: vs) = w.map (charExpr caseless) ++ rs := by
    cases vs with
    | nil => exact ⟨_, rfl⟩
    | cons v vs => exact ⟨_, rfl⟩
  rw [hrs] at h
  obtain ⟨y, v, rfl, hy, -⟩ := exists_of_takenByAll_word h
  obtain ⟨d, y, rfl⟩ := List.exists_cons_of_ne_nil fun hnil : y = [] =>
    hwne (by simpa [hnil] using hy)
  exact ⟨d, y ++ v, rfl, ne_space_of_map_foldChar hw hy d List.mem_cons_self⟩

/-- Between two words there are the two spaces that they have, whatever a run of spaces could
take. -/
theorem exists_next_of_spaces {y x k s : List Char} {d : Char} {xs : List (List Char)}
    (hy : ∀ c ∈ y, c ≠ ' ') (hx : ∀ c ∈ x, c ≠ ' ') (hk : ∀ c ∈ k, c = ' ') (hd : d ≠ ' ')
    (hxs : AreWords xs) (h : y ++ ' ' :: (k ++ d :: s) = x ++ ' ' :: xs.flatMap spaced) :
    y = x ∧ k = [' '] ∧ ∃ x' xs', xs = x' :: xs' ∧ d :: s = x' ++ ' ' :: xs'.flatMap spaced := by
  obtain ⟨hyx, hmore⟩ := append_space_inj hy hx h
  cases xs with
  | nil => simp at hmore
  | cons x' xs =>
    obtain ⟨⟨hne, hword⟩, -⟩ := List.forall_mem_cons.1 hxs
    obtain ⟨e, x', rfl⟩ := List.exists_cons_of_ne_nil hne
    have he : e ≠ ' ' := ne_space_of_isBlank (hword e List.mem_cons_self)
    obtain ⟨hspace, hnext⟩ := eq_of_spaces_append (t := x' ++ ' ' :: xs.flatMap spaced) hk hd he
      (by simpa [spaced] using hmore)
    exact ⟨hyx, hspace, _, _, rfl, hnext⟩

/-- The parts for words take words, with the spaces that these have. -/
theorem exists_words_of_takenByAll_partsBehind {vs : List (List Char)} (hne : vs ≠ [])
    (hvs : AreWords vs) {x : List Char} {xs : List (List Char)} (hxs : AreWords (x :: xs))
    {u v : List Char} (h : TakenByAll (partsBehind vs) u)
    (huv : u ++ v = x ++ ' ' :: xs.flatMap spaced) :
    ∃ us rest, x :: xs = us ++ rest ∧ Substitution.SameWords vs us ∧ ' ' :: u = us.flatMap spaced ∧
      v = rest.flatMap spaced := by
  -- word by word, with the words of the text split off the same way
  induction vs generalizing x xs u with
  | nil => exact absurd rfl hne
  | cons w vs ih =>
    obtain ⟨⟨-, hw⟩, hvs'⟩ := List.forall_mem_cons.1 hvs
    obtain ⟨⟨-, hx⟩, hxs'⟩ := List.forall_mem_cons.1 hxs
    have hx : ∀ d ∈ x, d ≠ ' ' := fun d hd => ne_space_of_isBlank (hx d hd)
    cases vs with
    | nil =>
      obtain ⟨y, k, rfl, hy, hk⟩ := exists_of_takenByAll_word h
      cases hk with
      | cons hk hnil =>
        cases hnil
        obtain ⟨d, rfl, hd⟩ := exists_of_takenBy_charExpr hk
        obtain rfl := foldChar_eq_iff_space.1 hd
        obtain ⟨rfl, rfl⟩ := append_space_inj (ne_space_of_map_foldChar hw hy) hx
          (by simpa using huv)
        refine ⟨[y], xs, rfl, ?_, by simp [spaced], rfl⟩
        rw [Substitution.SameWords, List.map_singleton, List.map_singleton, hy]
    | cons w' vs =>
      obtain ⟨y, k, rfl, hy, hk⟩ := exists_of_takenByAll_word h
      cases hk with
      | @cons _ _ k u hk hu =>
        obtain ⟨hkne, hspaces⟩ := spaces_of_takenBy_repeated hk
        obtain ⟨c, k, rfl⟩ := List.exists_cons_of_ne_nil hkne
        obtain ⟨rfl, hmore⟩ := List.forall_mem_cons.1 hspaces
        -- the next word begins behind the spaces, so that they are not a part of it
        obtain ⟨d, u, rfl, hd⟩ :=
          exists_head_of_takenByAll_partsBehind (List.cons_ne_nil w' vs) hvs' hu
        obtain ⟨rfl, rfl, x', xs, rfl, hnext⟩ := exists_next_of_spaces (s := u ++ v)
          (ne_space_of_map_foldChar hw hy) hx hmore hd hxs' (by simpa using huv)
        obtain ⟨us, rest, hsplit, hsame, hus, rfl⟩ :=
          ih (List.cons_ne_nil w' vs) hvs' hxs' hu hnext
        refine ⟨y :: us, rest, by rw [hsplit, List.cons_append], ?_, ?_, rfl⟩
        · exact congrArg₂ List.cons hy hsame
        · rw [List.flatMap_cons, ← hus]
          simp [spaced]

/-- Words that are the same in another case are taken. -/
theorem exists_takenByAll_partsBehind {vs us : List (List Char)} (hne : vs ≠ [])
    (h : Substitution.SameWords vs us) :
    ∃ u, TakenByAll (partsBehind vs) u ∧ ' ' :: u = us.flatMap spaced := by
  induction vs generalizing us with
  | nil => exact absurd rfl hne
  | cons w vs ih =>
    cases us with
    | nil => cases h
    | cons y us =>
      obtain ⟨hy, hrest⟩ := List.cons.inj h
      -- the last word has one space behind it, any other the space of the next word as well
      cases vs with
      | nil =>
        obtain rfl : us = [] := by simpa using hrest.symm
        refine ⟨y ++ ([' '] ++ []), takenByAll_word hy (.cons (.one rfl) .nil), ?_⟩
        simp [spaced]
      | cons w' vs =>
        obtain ⟨u, hu, hus⟩ := ih (List.cons_ne_nil w' vs) hrest
        refine ⟨y ++ ([' ', ' '] ++ u), takenByAll_word hy (.cons (.many ?_ ?_) hu), ?_⟩
        · exact List.cons_ne_nil _ _
        · simp
        · rw [List.flatMap_cons, ← hus]
          simp [spaced]

end Regex

namespace Substitution

open Regex

variable {s : Substitution}

theorem SameWords.length_eq {vs us : List (List Char)} (h : SameWords vs us) :
    vs.length = us.length := by
  simpa using congrArg List.length h

/-- A rule applies if the words of its pattern are a beginning of the words. -/
theorem applies_iff {ws : List (List Char)} :
    s.Applies ws ↔ ∃ us rest, ws = us ++ rest ∧ SameWords s.patternWords us := by
  constructor
  · exact fun h => ⟨_, _, (List.take_append_drop _ ws).symm, h⟩
  · rintro ⟨us, rest, rfl, h⟩
    rw [Applies, h.length_eq, List.take_left]
    exact h

theorem IsWordRule.parts_eq (h : s.IsWordRule) :
    s.parts caseless = charExpr caseless ' ' :: partsBehind s.patternWords := by
  rw [parts, h.first, h.last, h.single,
    ← map_literalPart_joinWords h.words (areWords_breakWords _)]
  rfl

/-- What the expression of a rule takes is words with their spaces, and the rule applies there. -/
theorem IsWordRule.exists_words (h : s.IsWordRule) {ws : List (List Char)} (hws : AreWords ws)
    {u v : List Char} (hu : TakenByAll (s.parts caseless) u) (huv : ws.flatMap spaced = u ++ v) :
    ∃ us rest, ws = us ++ rest ∧ SameWords s.patternWords us ∧ u = us.flatMap spaced ∧
      v = rest.flatMap spaced := by
  rw [h.parts_eq] at hu
  cases hu with
  | cons hspace hu =>
    obtain ⟨d, rfl, hd⟩ := exists_of_takenBy_charExpr hspace
    obtain rfl := foldChar_eq_iff_space.1 hd
    cases ws with
    | nil => simp at huv
    | cons x xs =>
      exact exists_words_of_takenByAll_partsBehind h.words (areWords_breakWords _) hws hu
        (by simpa [spaced] using huv.symm)

/-- Where a rule applies, its expression can take the words. -/
theorem IsWordRule.takenByAll (h : s.IsWordRule) {us : List (List Char)}
    (hus : SameWords s.patternWords us) : TakenByAll (s.parts caseless) (us.flatMap spaced) := by
  obtain ⟨u, hu, hspaced⟩ := exists_takenByAll_partsBehind h.words hus
  rw [h.parts_eq, ← hspaced]
  exact .cons (u := [' ']) (.one rfl) hu

/-- The expression of a rule takes one space in front of a word. -/
theorem IsWordRule.exists_head (h : s.IsWordRule) {u : List Char}
    (hu : TakenByAll (s.parts caseless) u) : ∃ d u', u = ' ' :: d :: u' ∧ d ≠ ' ' := by
  rw [h.parts_eq] at hu
  cases hu with
  | cons hspace hu =>
    obtain ⟨c, rfl, hc⟩ := exists_of_takenBy_charExpr hspace
    obtain rfl := foldChar_eq_iff_space.1 hc
    obtain ⟨d, u, rfl, hd⟩ :=
      exists_head_of_takenByAll_partsBehind h.words (areWords_breakWords _) hu
    exact ⟨d, u, rfl, hd⟩

end Substitution

end Parley
