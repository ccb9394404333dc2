import Parley.Proofs.Regex.States
import Parley.Proofs.Trimming
import Parley.Proofs.WordRules

/-!
# Gaps in literals

A gap is a longest run of spaces between other characters. Every space of a literal asks for one or
more spaces, and all gaps of the text that substitutions work on are two spaces wide. So a gap of
one or two spaces in a literal takes a gap of the text, and a wider one takes nothing.

Main results:

* `squeeze_strip` — gaps are made narrow inside of the blanks at the ends;
* `Substitutions.gapsDoubled_workingText` — all gaps of a working text are two spaces wide;
* `Regex.map_foldChar_of_takenByAll` and `Regex.takenByAll_of_map_foldChar` — what a literal takes
  from such a text.
-/

namespace Parley

namespace Text

/-! ## Narrow gaps -/

/-- A text with one space in the place of every run of spaces. -/
def squeeze : List Char → List Char
  | [] => []
  | c :: rest => if c == ' ' && rest.head? == some ' ' then squeeze rest else c :: squeeze rest

/-- A text with two spaces in the place of every run of spaces. -/
def doubled (s : List Char) : List Char :=
  (squeeze s).flatMap fun c => if c == ' ' then [' ', ' '] else [c]

/-- Whether a text has three spaces in a row. -/
def HasWideGap (s : List Char) : Prop := [' ', ' ', ' '] <:+: s

instance (s : List Char) : Decidable (HasWideGap s) := inferInstanceAs (Decidable (_ <:+: _))

/-- A character that is no space stays. -/
theorem squeeze_cons_of_ne {c : Char} (hc : c ≠ ' ') (rest : List Char) :
    squeeze (c :: rest) = c :: squeeze rest := by
  rw [squeeze, beq_false_of_ne hc]
  rfl

/-- A space that no other one follows stays. -/
theorem squeeze_space_cons {rest : List Char} (hrest : rest.head? ≠ some ' ') :
    squeeze (' ' :: rest) = ' ' :: squeeze rest := by
  rw [squeeze, beq_false_of_ne hrest]
  rfl

/-- Of a run of spaces, one is left. -/
theorem squeeze_replicate_append (n : Nat) {rest : List Char} (hrest : rest.head? ≠ some ' ') :
    squeeze (List.replicate (n + 1) ' ' ++ rest) = ' ' :: squeeze rest := by
  induction n with
  | zero => exact squeeze_space_cons hrest
  | succ n ih => exact ih

/-- The text begins as before. -/
theorem head?_squeeze (s : List Char) : (squeeze s).head? = s.head? := by
  induction s with
  | nil => rfl
  | cons c rest ih =>
    rw [squeeze]
    split
    · next h =>
      rw [Bool.and_eq_true, beq_iff_eq, beq_iff_eq] at h
      rw [ih, h.2, h.1]
      rfl
    · rfl

/-- One character more at the end, unless it is a space behind a space. -/
theorem squeeze_concat (s : List Char) (c : Char) :
    squeeze (s ++ [c]) =
      if c == ' ' && s.getLast? == some ' ' then squeeze s else squeeze s ++ [c] := by
  induction s with
  | nil => simp [squeeze]
  | cons d rest ih =>
    cases rest with
    | nil =>
      by_cases hd : d = ' ' <;> by_cases hc : c = ' ' <;> simp [squeeze, hd, hc]
    | cons e rest =>
      -- the first character is kept or not as it was
      rw [List.cons_append, squeeze, squeeze, ih, List.getLast?_cons_cons]
      rw [show ((e :: rest) ++ [c]).head? = (e :: rest).head? from rfl]
      split <;> split <;> rfl

/-- Runs of spaces are runs from the right, too. -/
theorem squeeze_reverse (s : List Char) : squeeze s.reverse = (squeeze s).reverse := by
  induction s with
  | nil => rfl
  | cons c rest ih =>
    rw [List.reverse_cons, squeeze_concat, List.getLast?_reverse, squeeze, ih]
    split
    · rfl
    · rw [List.reverse_cons]

/-- The text ends as before. -/
theorem getLast?_squeeze (s : List Char) : (squeeze s).getLast? = s.getLast? := by
  rw [← List.head?_reverse, ← squeeze_reverse, head?_squeeze, List.head?_reverse]

/-- Blanks at the start are left out before or after the gaps are made narrow. -/
theorem squeeze_dropWhile (s : List Char) :
    squeeze (s.dropWhile isBlank) = (squeeze s).dropWhile isBlank := by
  induction s with
  | nil => rfl
  | cons c rest ih =>
    by_cases hc : isBlank c = true
    · rw [List.dropWhile_cons_of_pos hc, ih, squeeze]
      split
      · rfl
      · rw [List.dropWhile_cons_of_pos hc]
    · have hne : c ≠ ' ' := by
        rintro rfl
        exact hc isBlank_space
      rw [List.dropWhile_cons_of_neg hc, squeeze_cons_of_ne hne, List.dropWhile_cons_of_neg hc]

/-- **Gaps are made narrow inside of the blanks at the ends.** -/
theorem squeeze_strip (s : List Char) : squeeze (strip s) = strip (squeeze s) := by
  rw [strip, strip, dropEndWhile, dropEndWhile, squeeze_reverse, squeeze_dropWhile, squeeze_reverse,
    squeeze_dropWhile]

/-- To prove something of all texts, it is enough to go from a text to one with a character or a gap
in front of it. -/
@[elab_as_elim]
theorem gap_induction {P : List Char → Prop} (nil : P [])
    (char : ∀ c rest, c ≠ ' ' → P rest → P (c :: rest))
    (gap : ∀ n rest, rest.head? ≠ some ' ' → P rest → P (List.replicate (n + 1) ' ' ++ rest))
    (s : List Char) : P s := by
  induction hlength : s.length using Nat.strongRecOn generalizing s with
  | _ length ih =>
    subst hlength
    cases s with
    | nil => exact nil
    | cons c rest =>
      by_cases hc : c = ' '
      · subst hc
        -- all spaces in front are one gap
        have hgap : ∀ d ∈ rest.takeWhile (· == ' '), d = ' ' := fun d hd =>
          beq_iff_eq.1 (List.mem_takeWhile_imp (p := (· == ' ')) hd)
        have hhead : (rest.dropWhile (· == ' ')).head? ≠ some ' ' := by
          intro hsome
          have hnot := List.head?_dropWhile_not (· == ' ') rest
          rw [hsome] at hnot
          cases hnot
        have hsplit : ' ' :: rest =
            List.replicate ((rest.takeWhile (· == ' ')).length + 1) ' ' ++
              rest.dropWhile (· == ' ') := by
          rw [List.replicate_succ, ← List.eq_replicate_of_mem hgap, List.cons_append,
            List.takeWhile_append_dropWhile]
        rw [hsplit]
        refine gap _ _ hhead (ih _ ?_ _ rfl)
        exact Nat.lt_succ_of_le (List.dropWhile_sublist _).length_le
      · exact char c rest hc (ih _ (Nat.lt_succ_self _) rest rfl)

/-- A character that is no space stays. -/
theorem doubled_cons_of_ne {c : Char} (hc : c ≠ ' ') (rest : List Char) :
    doubled (c :: rest) = c :: doubled rest := by
  rw [doubled, squeeze_cons_of_ne hc, List.flatMap_cons, if_neg (by simpa using hc)]
  rfl

/-- Of a run of spaces, however long, two are left or made. -/
theorem doubled_replicate_append (n : Nat) {rest : List Char} (hrest : rest.head? ≠ some ' ') :
    doubled (List.replicate (n + 1) ' ' ++ rest) = ' ' :: ' ' :: doubled rest := by
  rw [doubled, squeeze_replicate_append n hrest]
  rfl

/-- A text that is not empty stays so. -/
theorem doubled_ne_nil {s : List Char} (hne : s ≠ []) : doubled s ≠ [] := by
  induction s using gap_induction with
  | nil => exact absurd rfl hne
  | char c rest hc _ =>
    rw [doubled_cons_of_ne hc]
    exact List.cons_ne_nil _ _
  | gap n rest hrest _ =>
    rw [doubled_replicate_append n hrest]
    exact List.cons_ne_nil _ _

/-- A wide gap does not begin with another character. -/
theorem hasWideGap_cons_iff {c : Char} (hc : c ≠ ' ') {rest : List Char} :
    HasWideGap (c :: rest) ↔ HasWideGap rest := by
  rw [HasWideGap, List.infix_cons_iff, List.cons_prefix_cons]
  exact ⟨fun h => h.resolve_left fun hprefix => hc hprefix.1.symm, Or.inr⟩

/-- A run of three spaces or more is a wide gap, a shorter one is none. -/
theorem hasWideGap_replicate_append_iff {n : Nat} {rest : List Char}
    (hrest : rest.head? ≠ some ' ') :
    HasWideGap (List.replicate (n + 1) ' ' ++ rest) ↔ 2 ≤ n ∨ HasWideGap rest := by
  have hstart : ∀ s, ¬(' ' :: s <+: rest) := by
    rintro s ⟨t, rfl⟩
    exact hrest rfl
  -- one or two spaces in front of another character are no wide gap
  have hfew : ∀ n ≤ 1, (HasWideGap (List.replicate (n + 1) ' ' ++ rest) ↔ HasWideGap rest) := by
    intro n hn
    obtain rfl | rfl : n = 0 ∨ n = 1 := by omega
    · show [' ', ' ', ' '] <:+: ' ' :: rest ↔ [' ', ' ', ' '] <:+: rest
      simp [List.infix_cons_iff, hstart]
    · show [' ', ' ', ' '] <:+: ' ' :: ' ' :: rest ↔ [' ', ' ', ' '] <:+: rest
      simp [List.infix_cons_iff, hstart]
  by_cases hn : 2 ≤ n
  · obtain ⟨m, rfl⟩ := Nat.exists_eq_add_of_le' hn
    exact iff_of_true ⟨[], List.replicate m ' ' ++ rest, rfl⟩ (Or.inl hn)
  · rw [hfew n (by omega)]
    exact ⟨Or.inr, fun h => h.resolve_left hn⟩

/-! ## Texts with gaps of two spaces -/

/-- Whether all gaps of a text between other characters are two spaces wide. -/
def GapsDoubled (text : List Char) : Prop :=
  ∀ front c gap d behind, text = front ++ c :: (gap ++ d :: behind) → c ≠ ' ' → d ≠ ' ' →
    gap ≠ [] → (∀ e ∈ gap, e = ' ') → gap = [' ', ' ']

/-- A character may stand in front of a text if the gap behind it has two spaces. -/
theorem GapsDoubled.cons {c : Char} {text : List Char} (htext : GapsDoubled text)
    (hc : c ≠ ' ' → ∀ gap d behind, text = gap ++ d :: behind → d ≠ ' ' → gap ≠ [] →
      (∀ e ∈ gap, e = ' ') → gap = [' ', ' ']) : GapsDoubled (c :: text) := by
  intro front e gap d behind h he hd hne hgap
  cases front with
  | nil =>
    obtain ⟨rfl, htext⟩ := List.cons.inj h
    exact hc he gap d behind htext hd hne hgap
  | cons f front => exact htext front e gap d behind (List.cons.inj h).2 he hd hne hgap

/-- A word in front of other words is two spaces away from them. -/
theorem GapsDoubled.word_append {w : List Char} {ws : List (List Char)}
    (hw : ∀ c ∈ w, isBlank c = false) (hws : AreWords ws) (h : GapsDoubled (ws.flatMap spaced)) :
    GapsDoubled (w ++ ' ' :: ws.flatMap spaced) := by
  induction w with
  | nil => exact h.cons fun hne => absurd rfl hne
  | cons c w ih =>
    obtain ⟨-, hw⟩ := List.forall_mem_cons.1 hw
    refine (ih hw).cons fun _ => ?_
    rintro (_ | ⟨e, gap⟩) d behind htext hd hne hgap
    · exact absurd rfl hne
    · obtain ⟨rfl, hspaces⟩ := List.forall_mem_cons.1 hgap
      cases w with
      | cons f w =>
        -- a character of a word is not a space
        exact absurd (List.cons.inj htext).1 (Regex.ne_space_of_isBlank (hw f List.mem_cons_self))
      | nil =>
        have hmore : ws.flatMap spaced = gap ++ d :: behind := (List.cons.inj htext).2
        cases ws with
        | nil => simp at hmore
        | cons v ws =>
          obtain ⟨⟨hv, hchars⟩, -⟩ := List.forall_mem_cons.1 hws
          obtain ⟨e, v, rfl⟩ := List.exists_cons_of_ne_nil hv
          have he : e ≠ ' ' := Regex.ne_space_of_isBlank (hchars e List.mem_cons_self)
          rw [(Regex.eq_of_spaces_append (t := v ++ ' ' :: ws.flatMap spaced) hspaces hd he
            (by simpa [spaced] using hmore.symm)).1]

/-- Words with a space at each end have gaps of two spaces between them. -/
theorem gapsDoubled_flatMap_spaced {ws : List (List Char)} (hws : AreWords ws) :
    GapsDoubled (ws.flatMap spaced) := by
  induction ws with
  | nil =>
    intro front c gap d behind h
    simp at h
  | cons w ws ih =>
    obtain ⟨⟨-, hw⟩, hrest⟩ := List.forall_mem_cons.1 hws
    have hspaced := ((ih hrest).word_append hw hrest).cons (c := ' ') fun hne => absurd rfl hne
    simpa [spaced] using hspaced

end Text

open Text

/-- **All gaps of a working text are two spaces wide.** -/
theorem Substitutions.gapsDoubled_workingText {ws : List (List Char)} (hws : AreWords ws) :
    GapsDoubled (workingText ws) := by
  by_cases hne : ws = []
  · subst hne
    -- a text without words has spaces only
    intro front c gap d behind h hc
    have hmem : c ∈ workingText [] := h ▸ List.mem_append_right front List.mem_cons_self
    exact absurd hmem (by simpa [workingText] using hc)
  · rw [workingText_eq hne]
    exact gapsDoubled_flatMap_spaced hws

namespace Regex

/-- A space of a literal matches any number of them, but one at least. -/
theorem literalPart_space :
    literalPart caseless ' ' = .repeated (charExpr caseless ' ') 1 none true := rfl

/-- The spaces of a gap take at least as many spaces. -/
theorem exists_of_takenByAll_gap {n : Nat} {rs : List Regex} {u : List Char}
    (h : TakenByAll (List.replicate n (.repeated (charExpr caseless ' ') 1 none true) ++ rs) u) :
    ∃ gap v, u = gap ++ v ∧ (∀ d ∈ gap, d = ' ') ∧ n ≤ gap.length ∧ TakenByAll rs v := by
  induction n generalizing u with
  | zero => exact ⟨[], u, rfl, fun _ hd => absurd hd List.not_mem_nil, Nat.le_refl 0, h⟩
  | succ n ih =>
    cases h with
    | @cons _ _ spaces v hspaces h =>
      obtain ⟨hne, hall⟩ := spaces_of_takenBy_repeated hspaces
      obtain ⟨gap, v, rfl, hgap, hn, hv⟩ := ih h
      have hpos := List.length_pos_iff.2 hne
      refine ⟨spaces ++ gap, v, (List.append_assoc ..).symm, List.forall_mem_append.2 ⟨hall, hgap⟩,
        ?_, hv⟩
      rw [List.length_append]
      omega

/-- What a literal takes that begins with another character begins with another character. -/
theorem exists_head_of_takenByAll {literal u : List Char} (hne : literal ≠ [])
    (hliteral : literal.head? ≠ some ' ')
    (h : TakenByAll (literal.map (literalPart caseless)) u) :
    ∃ d v, u = d :: v ∧ d ≠ ' ' := by
  obtain ⟨c, literal, rfl⟩ := List.exists_cons_of_ne_nil hne
  have hc : c ≠ ' ' := fun heq => hliteral (congrArg some heq)
  rw [List.map_cons, literalPart_of_ne hc] at h
  cases h with
  | cons hone h =>
    obtain ⟨d, rfl, hd⟩ := exists_of_takenBy_charExpr hone
    refine ⟨d, _, rfl, ?_⟩
    rintro rfl
    exact hc (foldChar_eq_iff_space.1 hd.symm)

/-- **What a literal takes** from a text whose gaps are two spaces wide is the literal with gaps of
this width, in some case; and then the literal has no wider gap. -/
theorem map_foldChar_of_takenByAll {literal front u behind : List Char}
    (htext : GapsDoubled (front ++ (u ++ behind)))
    (hfirst : literal.head? = some ' ' → ∃ c, front.getLast? = some c ∧ c ≠ ' ')
    (hlast : literal.getLast? ≠ some ' ')
    (h : TakenByAll (literal.map (literalPart caseless)) u) :
    ¬HasWideGap literal ∧ (doubled literal).map foldChar = u.map foldChar := by
  induction literal using gap_induction generalizing front u with
  | nil =>
    cases h
    exact ⟨by decide, rfl⟩
  | char c literal hc ih =>
    rw [List.map_cons, literalPart_of_ne hc] at h
    cases h with
    | @cons _ _ _ v hone h =>
      obtain ⟨d, rfl, hd⟩ := exists_of_takenBy_charExpr hone
      have hne : d ≠ ' ' := by
        rintro rfl
        exact hc (foldChar_eq_iff_space.1 hd.symm)
      have htext' : GapsDoubled ((front ++ [d]) ++ (v ++ behind)) := by simpa using htext
      obtain ⟨hnarrow, hsame⟩ := ih htext' (fun _ => ⟨d, List.getLast?_concat, hne⟩)
        (fun hspace => hlast (by rw [List.getLast?_cons, hspace]; rfl)) h
      rw [hasWideGap_cons_iff hc, doubled_cons_of_ne hc]
      refine ⟨hnarrow, ?_⟩
      show foldChar c :: _ = foldChar d :: _
      rw [hd, hsame]
      rfl
  | gap n literal hliteral ih =>
    rw [List.map_append, List.map_replicate, literalPart_space] at h
    obtain ⟨gap, v, rfl, hgap, hn, hv⟩ := exists_of_takenByAll_gap h
    -- the gap is between two characters, in the literal and so in the text
    have hne : literal ≠ [] := by
      rintro rfl
      exact hlast (by rw [List.append_nil, List.getLast?_replicate]; rfl)
    have hliteralLast : literal.getLast? ≠ some ' ' := by
      rwa [List.getLast?_append_of_ne_nil _ hne] at hlast
    obtain ⟨d, v, rfl, hd⟩ := exists_head_of_takenByAll hne hliteral hv
    obtain ⟨c, hc, hcne⟩ := hfirst rfl
    obtain ⟨front, rfl⟩ := List.getLast?_eq_some_iff.1 hc
    have hdouble : gap = [' ', ' '] := by
      refine htext front c gap d (v ++ behind) (by simp) hcne hd ?_ hgap
      rintro rfl
      simp at hn
    subst hdouble
    have htext' : GapsDoubled ((front ++ [c, ' ', ' ']) ++ (d :: v ++ behind)) := by
      simpa using htext
    obtain ⟨hnarrow, hsame⟩ :=
      ih htext' (fun hspace => absurd hspace hliteral) hliteralLast hv
    rw [hasWideGap_replicate_append_iff hliteral, doubled_replicate_append n hliteral,
      List.map_cons, List.map_cons, hsame]
    refine ⟨?_, rfl⟩
    rintro (hwide | hwide)
    · have htwo : n + 1 ≤ 2 := hn
      omega
    · exact hnarrow hwide

/-- **A literal without a wide gap takes** itself with gaps of two spaces, in any case. -/
theorem takenByAll_of_map_foldChar {literal u : List Char} (hnarrow : ¬HasWideGap literal)
    (h : (doubled literal).map foldChar = u.map foldChar) :
    TakenByAll (literal.map (literalPart caseless)) u := by
  induction literal using gap_induction generalizing u with
  | nil =>
    obtain rfl : u = [] := List.map_eq_nil_iff.1 h.symm
    exact .nil
  | char c literal hc ih =>
    rw [doubled_cons_of_ne hc, List.map_cons] at h
    obtain ⟨d, v, rfl, hd, hv⟩ := List.map_eq_cons_iff.1 h.symm
    rw [hasWideGap_cons_iff hc] at hnarrow
    rw [List.map_cons, literalPart_of_ne hc]
    exact .cons (u := [d]) (.one hd) (ih hnarrow hv.symm)
  | gap n literal hliteral ih =>
    rw [doubled_replicate_append n hliteral, List.map_cons, List.map_cons] at h
    obtain ⟨c, u, rfl, hc, hu⟩ := List.map_eq_cons_iff.1 h.symm
    obtain ⟨d, v, rfl, hd, hv⟩ := List.map_eq_cons_iff.1 hu
    obtain rfl := foldChar_eq_iff_space.1 hc
    obtain rfl := foldChar_eq_iff_space.1 hd
    rw [hasWideGap_replicate_append_iff hliteral, not_or] at hnarrow
    have hrest := ih hnarrow.2 hv.symm
    -- one space takes both spaces of the gap, and two spaces take one each
    obtain rfl | rfl : n = 0 ∨ n = 1 := by omega
    · exact .cons (u := [' ', ' ']) (.many (List.cons_ne_nil _ _) (by simp)) hrest
    · have hone : TakenBy (literalPart caseless ' ') [' '] :=
        .many (List.cons_ne_nil _ _) (by simp)
      exact .cons hone (.cons hone hrest)

/-- Parts one after the other take texts one after the other. -/
theorem takenByAll_append_iff {rs qs : List Regex} {u : List Char} :
    TakenByAll (rs ++ qs) u ↔ ∃ v w, u = v ++ w ∧ TakenByAll rs v ∧ TakenByAll qs w := by
  constructor
  · intro h
    induction rs generalizing u with
    | nil => exact ⟨[], u, rfl, .nil, h⟩
    | cons r rs ih =>
      cases h with
      | cons hr h =>
        obtain ⟨v, w, rfl, hv, hw⟩ := ih h
        exact ⟨_, w, (List.append_assoc ..).symm, .cons hr hv, hw⟩
  -- back: on how the first expressions take their part
  · rintro ⟨v, w, rfl, hv, hw⟩
    induction hv with
    | nil => exact hw
    | cons hr _ ih =>
      rw [List.append_assoc]
      exact .cons hr ih

/-- The space at an end of a literal takes one space. -/
theorem takenByAll_boundary_iff {b : Bool} {u : List Char} :
    TakenByAll (if b then [charExpr caseless ' '] else []) u ↔
      (if b then [' '] else []).map foldChar = u.map foldChar := by
  cases b with
  | false =>
    constructor
    · rintro ⟨⟩
      rfl
    · intro h
      obtain rfl : u = [] := List.map_eq_nil_iff.1 h.symm
      exact .nil
  | true =>
    constructor
    · intro h
      cases h with
      | cons hspace h =>
        cases h
        obtain ⟨d, rfl, hd⟩ := exists_of_takenBy_charExpr hspace
        exact congrArg (fun c => [c]) hd.symm
    · intro h
      obtain ⟨d, v, rfl, hd, hv⟩ := List.map_eq_cons_iff.1 h.symm
      obtain rfl := List.map_eq_nil_iff.1 hv
      exact .cons (u := [d]) (.one hd) .nil

/-- To advance in a text is to drop from what is left. -/
theorem Place.rest_advance (p : Place) (n : Nat) : (p.advance n).rest = p.rest.drop n := by
  induction n generalizing p with
  | zero => rfl
  | succ n ih =>
    obtain ⟨before, rest, index⟩ := p
    cases rest with
    | nil => rfl
    | cons c rest => exact ih _

/-- A place that is reached is as many characters further on as were taken on the way. -/
theorem Place.eq_advance_of_took {p q : Place} (hreaches : p.Reaches q) {u : List Char}
    (h : p.Took u q) : q = p.advance u.length := by
  obtain ⟨n, hn, rfl⟩ := hreaches
  have hindex := h.2
  rw [index_advance hn] at hindex
  rw [Nat.add_left_cancel hindex]

end Regex

end Parley
