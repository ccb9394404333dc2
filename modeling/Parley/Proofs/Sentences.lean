import Parley.Proofs.Trimming
import Parley.Sentence

/-!
# The sentences of a text

A sentence ends at a mark if a blank, an opening bracket or the end of the text is behind it. These
positions cut a text into the sentences that end in it and what is left behind the last of them, and
there is one way only to cut it. Sentences are cut off one after the other, with a look at one
character ahead; here this is compared with the positions, which say nothing about how they are
found.

Main results:

* `Sentence.exists_parted`, `Sentence.Parted.pieces_eq` — the pieces of a text are those between the
  positions at which sentences end;
* `Sentence.IsWhole.splitSentences_eq` — a whole sentence is not cut again;
* `splitSentences_lossless` — nothing of a text is lost, every sentence is whole, and there are as
  many as there are positions at which one ends;
* `splitSentences_without_marks` — sentences are the same with their marks and without them.
-/

namespace Parley

open Text

namespace Sentence

variable {marks : List Char}

/-! ## Where sentences end -/

/-- Whether a sentence ends at a position of a text: there is a mark, and a blank, an opening
bracket or the end is behind it. -/
def EndsAt (marks s : List Char) (i : Nat) : Prop :=
  ∃ c ∈ marks, s[i]? = some c ∧ ∀ d ∈ s[i + 1]?, isBlank d = true ∨ d = '<'

/-- The test of the splitter is whether a sentence ends. -/
theorem endsAt_iff (marks s : List Char) (i : Nat) :
    (s[i]?.any marks.contains && s[i + 1]?.all fun d => isBlank d || d == '<') = true ↔
      EndsAt marks s i := by
  have hnext : ∀ d, (isBlank d || d == '<') = true ↔ isBlank d = true ∨ d = '<' := by simp
  simp only [Bool.and_eq_true, Option.any_eq_true, Option.all_eq_true, List.contains_iff_mem, hnext]
  constructor
  · rintro ⟨⟨c, hc, hmark⟩, hall⟩
    exact ⟨c, hmark, hc, hall⟩
  · rintro ⟨c, hmark, hc, hall⟩
    exact ⟨⟨c, hc, hmark⟩, hall⟩

instance (marks s : List Char) (i : Nat) : Decidable (EndsAt marks s i) :=
  decidable_of_iff _ (endsAt_iff marks s i)

/-- The positions at which sentences end, in order. -/
def ends (marks s : List Char) : List Nat :=
  (List.range s.length).filter fun i => EndsAt marks s i

/-- What is left of a text behind the last position at which a sentence ends. -/
def remainder (marks s : List Char) : List Char :=
  match (ends marks s).getLast? with
  | none => s
  | some i => s.drop (i + 1)

/-- No sentence ends in the empty text. -/
theorem not_endsAt_nil (i : Nat) : ¬EndsAt marks [] i := by
  rintro ⟨c, -, hc, -⟩
  cases hc

/-- Whether a sentence ends at a position does not depend on what is before it. -/
theorem endsAt_append_iff (before s : List Char) (i : Nat) :
    EndsAt marks (before ++ s) (before.length + i) ↔ EndsAt marks s i := by
  have hindex : ∀ j, (before ++ s)[before.length + j]? = s[j]? := by
    intro j
    rw [List.getElem?_append_right (Nat.le_add_right ..), Nat.add_sub_cancel_left]
  rw [EndsAt, EndsAt, hindex, Nat.add_assoc, hindex]

/-- Whether one ends at the first character shows at the second one. -/
theorem endsAt_zero_iff {c : Char} {s : List Char} :
    EndsAt marks (c :: s) 0 ↔ c ∈ marks ∧ ∀ d ∈ s.head?, isBlank d = true ∨ d = '<' := by
  rw [List.head?_eq_getElem?]
  constructor
  · rintro ⟨d, hd, hfirst, hnext⟩
    obtain rfl := Option.some.inj hfirst
    exact ⟨hd, hnext⟩
  · rintro ⟨hc, hnext⟩
    exact ⟨c, hc, rfl, hnext⟩

/-- Whether one ends further on does not depend on what is before. -/
theorem endsAt_length_iff {before s : List Char} {c : Char} :
    EndsAt marks (before ++ c :: s) before.length ↔
      c ∈ marks ∧ ∀ d ∈ s.head?, isBlank d = true ∨ d = '<' := by
  rw [← endsAt_zero_iff]
  exact endsAt_append_iff before (c :: s) 0

/-- The look at the next character says whether a sentence ends. -/
theorem looksAhead_iff {c : Char} {s : List Char} :
    (marks.contains c && endsBefore s) = true ↔ EndsAt marks (c :: s) 0 := by
  rw [Bool.and_eq_true, List.contains_iff_mem, endsAt_zero_iff]
  cases s <;> simp [endsBefore]

/-! ## Texts in parts -/

/-- A text as the sentences that end in it, each as what is in front of its mark and the mark, and
as what is left behind them. -/
inductive Parted (marks : List Char) :
    List Char → List (List Char × Char) → List Char → Prop where
  | rest {s : List Char} (hopen : ∀ i, ¬EndsAt marks s i) : Parted marks s [] s
  | sentence {body behind rest : List Char} {mark : Char} {more : List (List Char × Char)}
    (hopen : ∀ i < body.length, ¬EndsAt marks (body ++ mark :: behind) i)
    (hends : EndsAt marks (body ++ mark :: behind) body.length)
    (hbehind : Parted marks behind more rest) :
    Parted marks (body ++ mark :: behind) ((body, mark) :: more) rest

/-- Every text has its parts. -/
theorem exists_parted (marks s : List Char) : ∃ ended rest, Parted marks s ended rest := by
  induction s with
  | nil => exact ⟨[], [], .rest not_endsAt_nil⟩
  | cons c s ih =>
    obtain ⟨ended, rest, hparts⟩ := ih
    by_cases hc : EndsAt marks (c :: s) 0
    · refine ⟨([], c) :: ended, rest, @Parted.sentence marks [] s rest c ended ?_ hc hparts⟩
      intro i hi
      cases hi
    · -- the character belongs to the first part
      cases hparts with
      | rest hopen =>
        refine ⟨[], c :: s, .rest fun i => ?_⟩
        cases i with
        | zero => exact hc
        | succ i => exact hopen i
      | @sentence body behind _ mark more hopen hends hbehind =>
        refine ⟨(c :: body, mark) :: more, rest,
          @Parted.sentence marks (c :: body) behind rest mark more ?_ hends hbehind⟩
        intro i hi
        cases i with
        | zero => exact hc
        | succ i => exact hopen i (Nat.lt_of_succ_lt_succ hi)

/-- An ended sentence with its mark, or without it. -/
def written (keep : Bool) (sentence : List Char × Char) : List Char :=
  sentence.1 ++ if keep then [sentence.2] else []

/-- A character that ends no sentence belongs to the first piece. -/
theorem pieces_of_not_endsAt {c : Char} {s : List Char} (h : ¬EndsAt marks (c :: s) 0)
    (keep : Bool) : pieces marks keep (c :: s) = consFirst c (pieces marks keep s) := by
  rw [pieces, if_neg (mt looksAhead_iff.1 h)]

/-- A text in which no sentence ends is not cut. -/
theorem pieces_eq_singleton {s : List Char} (hopen : ∀ i, ¬EndsAt marks s i) (keep : Bool) :
    pieces marks keep s = [s] := by
  induction s with
  | nil => rfl
  | cons c s ih => rw [pieces_of_not_endsAt (hopen 0), ih fun i => hopen (i + 1), consFirst]

/-- A text is cut behind the first mark at which a sentence ends. -/
theorem pieces_append_cons {body behind : List Char} {mark : Char}
    (hopen : ∀ i < body.length, ¬EndsAt marks (body ++ mark :: behind) i)
    (hends : EndsAt marks (body ++ mark :: behind) body.length) (keep : Bool) :
    pieces marks keep (body ++ mark :: behind) =
      written keep (body, mark) :: pieces marks keep behind := by
  induction body with
  | nil =>
    rw [List.nil_append, pieces, if_pos (looksAhead_iff.2 hends)]
    rfl
  | cons c body ih =>
    have hrest := ih (fun i hi => hopen (i + 1) (Nat.succ_lt_succ hi)) hends
    have hfirst : ¬EndsAt marks (c :: (body ++ mark :: behind)) 0 := hopen 0 (Nat.succ_pos _)
    rw [List.cons_append, pieces_of_not_endsAt hfirst, hrest, consFirst]
    rfl

namespace Parted

variable {s rest : List Char} {ended : List (List Char × Char)}

/-- **The pieces of a text are its parts.** -/
theorem pieces_eq (h : Parted marks s ended rest) (keep : Bool) :
    pieces marks keep s = ended.map (written keep) ++ [rest] := by
  induction h with
  | rest hopen => rw [pieces_eq_singleton hopen, List.map_nil, List.nil_append]
  | sentence hopen hends _ ih =>
    rw [pieces_append_cons hopen hends, ih, List.map_cons, List.cons_append]

/-- The parts together are the text. -/
theorem flatten_eq (h : Parted marks s ended rest) :
    (ended.map (written true) ++ [rest]).flatten = s := by
  induction h with
  | rest hopen => simp
  | @sentence body behind _ mark more _ _ _ ih =>
    rw [List.map_cons, List.cons_append, List.flatten_cons, ih]
    simp [written]

/-- Sentences end with marks. -/
theorem mem_marks (h : Parted marks s ended rest) {sentence : List Char × Char}
    (hmem : sentence ∈ ended) : sentence.2 ∈ marks := by
  induction h with
  | rest => cases hmem
  | @sentence body behind _ mark more hopen hends _ ih =>
    rcases List.mem_cons.1 hmem with rfl | hmem
    · exact (endsAt_length_iff.1 hends).1
    · exact ih hmem

/-- No sentence ends in what is left. -/
theorem not_endsAt_rest (h : Parted marks s ended rest) (i : Nat) : ¬EndsAt marks rest i := by
  induction h with
  | rest hopen => exact hopen i
  | sentence _ _ _ ih => exact ih

/-- The parts of a text say where sentences end in it. -/
theorem ends_append_cons {body behind : List Char} {mark : Char}
    (hopen : ∀ i < body.length, ¬EndsAt marks (body ++ mark :: behind) i)
    (hends : EndsAt marks (body ++ mark :: behind) body.length) :
    ends marks (body ++ mark :: behind) =
      body.length :: (ends marks behind).map (body.length + 1 + ·) := by
  have hlength : (body ++ mark :: behind).length = body.length + 1 + behind.length := by
    simp only [List.length_append, List.length_cons]
    omega
  have hbody : (List.range body.length).filter
      (fun i => decide (EndsAt marks (body ++ mark :: behind) i)) = [] := by
    rw [List.filter_eq_nil_iff]
    intro i hi
    simpa using hopen i (List.mem_range.1 hi)
  have hbehind : ∀ i, EndsAt marks (body ++ mark :: behind) (body.length + 1 + i) ↔
      EndsAt marks behind i := by
    intro i
    have hsplit := @endsAt_append_iff marks (body ++ [mark]) behind i
    rwa [List.append_assoc, List.singleton_append, List.length_append] at hsplit
  rw [ends, hlength, List.range_add, List.range_succ, List.filter_append, List.filter_append,
    hbody, List.filter_map, ends]
  simp [Function.comp_def, hbehind, hends]

/-- A text in which no sentence ends has no positions of ends. -/
theorem ends_rest {s : List Char} (hopen : ∀ i, ¬EndsAt marks s i) : ends marks s = [] := by
  rw [ends, List.filter_eq_nil_iff]
  intro i _
  simpa using hopen i

/-- There are as many positions as sentences that end, and behind the last one is what is left. -/
theorem length_ends (h : Parted marks s ended rest) :
    (ends marks s).length = ended.length ∧ remainder marks s = rest := by
  induction h with
  | rest hopen =>
    rw [remainder, ends_rest hopen]
    exact ⟨rfl, rfl⟩
  | @sentence body behind rest mark more hopen hends _ ih =>
    obtain ⟨hlength, hrest⟩ := ih
    -- behind the first mark, positions are counted from there
    rw [remainder, ends_append_cons hopen hends]
    refine ⟨by simp [hlength], ?_⟩
    rw [← hrest, remainder, List.getLast?_cons, List.getLast?_map]
    cases hlast : (ends marks behind).getLast? with
    | none => simp
    | some i =>
      have hindex : body.length + 1 + i + 1 = body.length + (i + 2) := by omega
      simp [hindex]

/-- Behind the last mark of what is left there is something else than blanks. -/
theorem not_mem_marks_of_getLast?_strip (h : Parted marks s ended rest) {c : Char}
    (hc : c ∈ (strip rest).getLast?) : c ∉ marks := by
  intro hmark
  -- the character is in front of the blanks that are taken away
  obtain ⟨before, behind, hrest, -, hbehind⟩ := exists_blanks_strip rest
  obtain ⟨init, hinit⟩ := List.getLast?_eq_some_iff.1 hc
  have hsplit : rest = (before ++ init) ++ c :: behind := by
    rw [hrest, hinit]
    simp
  refine h.not_endsAt_rest (before ++ init).length ?_
  rw [hsplit, endsAt_length_iff]
  exact ⟨hmark, fun d hd => Or.inl (hbehind d (List.mem_of_head? hd))⟩

end Parted

/-! ## Whole sentences -/

/-- Whether no mark in a text has a blank or an opening bracket behind it. -/
def IsUncut (marks s : List Char) : Prop :=
  ∀ c ∈ marks, ∀ d, [c, d] <:+: s → isBlank d = false ∧ d ≠ '<'

/-- Whether a text is a sentence by itself: it is not empty, has no blanks at its ends, and no
sentence ends inside. -/
structure IsWhole (marks : List Char) (s : String) : Prop where
  ne_empty : s ≠ ""
  head : ∀ c ∈ s.toList.head?, isBlank c = false
  last : ∀ c ∈ s.toList.getLast?, isBlank c = false
  isUncut : IsUncut marks s.toList

/-- A part of a text in which no sentence ends, but maybe with its last character, is not cut. -/
theorem isUncut_of_not_endsAt {s p : List Char} (hp : p <+: s)
    (hopen : ∀ i, i + 1 < p.length → ¬EndsAt marks s i) : IsUncut marks p := by
  rintro c hc d ⟨before, behind, hsplit⟩
  obtain ⟨rest, hrest⟩ := hp
  have hs : s = before ++ c :: d :: (behind ++ rest) := by
    rw [← hrest, ← hsplit]
    simp
  have hlength : p.length = before.length + 2 + behind.length := by
    rw [← hsplit]
    simp only [List.length_append, List.length_cons, List.length_nil]
  have hnot := hopen before.length (by omega)
  rw [hs, endsAt_length_iff] at hnot
  by_contra hd
  refine hnot ⟨hc, fun e he => ?_⟩
  obtain rfl := Option.some.inj he
  cases hblank : isBlank d with
  | true => exact Or.inl rfl
  | false => exact Or.inr (by_contra fun hne => hd ⟨hblank, hne⟩)

/-- The parts of a text are not cut, if marks stay with their sentences. -/
theorem Parted.isUncut {s rest p : List Char} {ended : List (List Char × Char)}
    (h : Parted marks s ended rest) (hp : p ∈ ended.map (written true) ++ [rest]) :
    IsUncut marks p := by
  induction h with
  | rest hopen =>
    rw [List.map_nil, List.nil_append, List.mem_singleton] at hp
    subst hp
    exact isUncut_of_not_endsAt (List.prefix_refl _) fun i _ => hopen i
  | @sentence body behind rest mark more hopen hends _ ih =>
    rw [List.map_cons, List.cons_append, List.mem_cons] at hp
    rcases hp with rfl | hp
    · refine isUncut_of_not_endsAt (s := body ++ mark :: behind) ⟨behind, by simp [written]⟩ ?_
      intro i hi
      refine hopen i ?_
      simp only [written, if_true, List.length_append, List.length_singleton] at hi
      omega
    · exact ih hp

/-- A text that is not cut inside is one piece, and maybe an empty one behind its last mark. -/
theorem IsUncut.pieces_eq {s : List Char} (h : IsUncut marks s) :
    pieces marks true s = [s] ∨ pieces marks true s = [s, []] := by
  obtain ⟨ended, rest, hparts⟩ := exists_parted marks s
  cases hparts with
  | rest hopen => exact Or.inl (pieces_eq_singleton hopen true)
  | @sentence body behind _ mark more hopen hends _ =>
    refine Or.inr ?_
    cases behind with
    | nil => rw [pieces_append_cons hopen hends, pieces, written, if_pos rfl]
    | cons d behind =>
      -- then a sentence would end inside
      obtain ⟨hmark, hnext⟩ := endsAt_length_iff.1 hends
      obtain ⟨hblank, hne⟩ := h mark hmark d ⟨body, behind, by simp⟩
      rcases hnext d rfl with hd | hd
      · rw [hblank] at hd
        cases hd
      · exact absurd hd hne

/-! ## Trimmed pieces -/

/-- Pieces of a text as sentences: without the blanks at their ends, and without those that are
blank. -/
def trimmed (ps : List (List Char)) : List String :=
  ((ps.map strip).filter fun p => !p.isEmpty).map String.ofList

/-- Sentences are pieces, trimmed. -/
theorem splitSentences_eq (marks : List Char) (keep : Bool) (text : String) :
    splitSentences marks keep text = trimmed (pieces marks keep text.toList) := rfl

/-- A piece is dropped if nothing of it is left. -/
theorem trimmed_cons (p : List Char) (ps : List (List Char)) :
    trimmed (p :: ps) =
      if strip p = [] then trimmed ps else String.ofList (strip p) :: trimmed ps := by
  rw [trimmed, List.map_cons, List.filter_cons]
  by_cases hp : strip p = [] <;> simp [hp, trimmed]

/-- Pieces are trimmed one by one. -/
theorem trimmed_append (ps qs : List (List Char)) :
    trimmed (ps ++ qs) = trimmed ps ++ trimmed qs := by
  rw [trimmed, List.map_append, List.filter_append, List.map_append, trimmed, trimmed]

/-- A sentence that ends has at least its mark. -/
theorem strip_written_ne_nil {sentence : List Char × Char} (hblank : isBlank sentence.2 = false) :
    strip (written true sentence) ≠ [] := by
  intro hnil
  have hmark := strip_eq_nil_iff.1 hnil sentence.2 (by simp [written])
  rw [hblank] at hmark
  cases hmark

/-- A sentence is what is left of a piece. -/
theorem mem_trimmed_iff {ps : List (List Char)} {s : String} :
    s ∈ trimmed ps ↔ ∃ p ∈ ps, strip p ≠ [] ∧ s = String.ofList (strip p) := by
  simp only [trimmed, List.mem_map, List.mem_filter]
  constructor
  · rintro ⟨_, ⟨⟨p, hp, rfl⟩, hne⟩, rfl⟩
    exact ⟨p, hp, by simpa using hne, rfl⟩
  · rintro ⟨p, hp, hne, rfl⟩
    exact ⟨_, ⟨⟨p, hp, rfl⟩, by simpa using hne⟩, rfl⟩

/-- Trimming takes nothing but blanks away. -/
theorem filter_flatMap_trimmed (ps : List (List Char)) :
    ((trimmed ps).flatMap String.toList).filter (fun c => !isBlank c) =
      ps.flatten.filter fun c => !isBlank c := by
  induction ps with
  | nil => rfl
  | cons p ps ih =>
    rw [trimmed_cons, List.flatten_cons, List.filter_append, ← ih, ← filter_strip p]
    split
    · next hp => rw [hp, List.filter_nil, List.nil_append]
    · rw [List.flatMap_cons, List.filter_append, String.toList_ofList]

/-- A piece that is not blank is a sentence. -/
theorem length_trimmed {ps : List (List Char)} (h : ∀ p ∈ ps, strip p ≠ []) :
    (trimmed ps).length = ps.length := by
  induction ps with
  | nil => rfl
  | cons p ps ih =>
    rw [List.forall_mem_cons] at h
    rw [trimmed_cons, if_neg h.1, List.length_cons, List.length_cons, ih h.2]

/-- A piece is dropped if it is blank. -/
theorem length_trimmed_singleton (p : List Char) :
    (trimmed [p]).length = if p.all isBlank then 0 else 1 := by
  rw [trimmed_cons]
  by_cases hp : p.all isBlank = true
  · rw [if_pos (strip_eq_nil_iff_all.2 hp), if_pos hp]
    rfl
  · rw [if_neg (mt strip_eq_nil_iff_all.1 hp), if_neg hp]
    rfl

/-- What is left at the end is the last sentence, if there is anything but blanks. -/
theorem getLast?_trimmed_concat (ps : List (List Char)) {p : List Char}
    (hp : p.all isBlank = false) :
    (trimmed (ps ++ [p])).getLast? = some (String.ofList (strip p)) := by
  have hne : strip p ≠ [] := by
    intro hnil
    rw [strip_eq_nil_iff_all.1 hnil] at hp
    cases hp
  have hlast : trimmed [p] = [String.ofList (strip p)] := by
    rw [trimmed_cons, if_neg hne]
    rfl
  rw [trimmed_append, hlast, List.getLast?_concat]

/-- What is left of a part of a text that is not cut is a whole sentence. -/
theorem isWhole_ofList_strip {p : List Char} (h : IsUncut marks p) (hne : strip p ≠ []) :
    IsWhole marks (String.ofList (strip p)) where
  ne_empty := by
    intro hempty
    rw [String.ofList_eq_empty_iff] at hempty
    exact hne hempty
  head c hc := not_isBlank_of_head?_strip (String.toList_ofList ▸ hc)
  last c hc := not_isBlank_of_getLast?_strip (String.toList_ofList ▸ hc)
  isUncut c hc d hd := by
    rw [String.toList_ofList] at hd
    exact h c hc d (hd.trans (isInfix_strip p))

/-- **A whole sentence is not cut again.** -/
theorem IsWhole.splitSentences_eq {s : String} (h : IsWhole marks s) :
    splitSentences marks true s = [s] := by
  have hstrip : strip s.toList = s.toList := strip_eq_of_ends h.head h.last
  have hne : s.toList ≠ [] := mt String.toList_eq_nil_iff.1 h.ne_empty
  have hnil : strip [] = [] := rfl
  rw [Sentence.splitSentences_eq]
  rcases h.isUncut.pieces_eq with hpieces | hpieces
  · rw [hpieces, trimmed_cons, hstrip, if_neg hne, String.ofList_toList]
    rfl
  · rw [hpieces, trimmed_cons, hstrip, if_neg hne, String.ofList_toList, trimmed_cons, hnil]
    rfl

end Sentence

open Sentence

/-! ## Sentences with their marks -/

/-- **Nothing of a text is lost.** If marks stay with their sentences, the sentences together are
the text, up to blanks; every one is whole and would not be cut again. If no mark is a blank, there
are as many as there are positions at which a sentence ends, and one more if there is anything but
blanks behind the last of them. -/
theorem splitSentences_lossless (marks : List Char) (text : String) :
    let sentences := splitSentences marks true text
    (sentences.flatMap String.toList).filter (fun c => !isBlank c) =
        text.toList.filter (fun c => !isBlank c) ∧
      (∀ s ∈ sentences, IsWhole marks s ∧ splitSentences marks true s = [s]) ∧
      ((∀ c ∈ marks, isBlank c = false) →
        sentences.length = (ends marks text.toList).length +
          if (remainder marks text.toList).all isBlank then 0 else 1) := by
  obtain ⟨ended, rest, hparts⟩ := exists_parted marks text.toList
  dsimp only
  rw [splitSentences_eq, hparts.pieces_eq]
  refine ⟨?_, ?_, ?_⟩
  · rw [filter_flatMap_trimmed, hparts.flatten_eq]
  · intro s hs
    obtain ⟨p, hp, hne, rfl⟩ := mem_trimmed_iff.1 hs
    have hwhole := isWhole_ofList_strip (hparts.isUncut hp) hne
    exact ⟨hwhole, hwhole.splitSentences_eq⟩
  · intro hmarks
    obtain ⟨hlength, hrest⟩ := hparts.length_ends
    have hended : ∀ p ∈ ended.map (written true), strip p ≠ [] := by
      intro p hp
      obtain ⟨sentence, hsentence, rfl⟩ := List.mem_map.1 hp
      exact strip_written_ne_nil (hmarks _ (hparts.mem_marks hsentence))
    rw [trimmed_append, List.length_append, length_trimmed hended, List.length_map, hlength, hrest,
      length_trimmed_singleton]

theorem splitSentences_lossless_prices :
    splitSentences ['.', '!', '?', ';'] true " Is it 3.50?! Yes..  no <b>x!</b>" =
        ["Is it 3.50?!", "Yes..", "no <b>x!", "</b>"] ∧
      (∀ s ∈ splitSentences ['.', '!', '?', ';'] true " Is it 3.50?! Yes..  no <b>x!</b>",
        IsWhole ['.', '!', '?', ';'] s ∧ splitSentences ['.', '!', '?', ';'] true s = [s]) ∧
      ends ['.', '!', '?', ';'] " Is it 3.50?! Yes..  no <b>x!</b>".toList = [12, 18, 28] ∧
      (splitSentences ['.', '!', '?', ';'] true " Is it 3.50?! Yes..  no <b>x!</b>").length =
        3 + 1 := by
  have hmarks : (['.', '!', '?', ';'].all fun c => isBlank c == false) = true := by decide
  obtain ⟨-, hwhole, hlength⟩ := splitSentences_lossless ['.', '!', '?', ';']
    " Is it 3.50?! Yes..  no <b>x!</b>"
  have hends : ends ['.', '!', '?', ';'] " Is it 3.50?! Yes..  no <b>x!</b>".toList =
      [12, 18, 28] := by decide +kernel
  have hrest : (remainder ['.', '!', '?', ';']
      " Is it 3.50?! Yes..  no <b>x!</b>".toList).all isBlank = false := by decide +kernel
  refine ⟨by decide +kernel, hwhole, hends, ?_⟩
  rw [hlength fun c hc => eq_of_beq (List.all_eq_true.1 hmarks c hc), hends, hrest]
  rfl

/-! ## Sentences without their marks -/

/-- A sentence without its mark, if it ends with one, and without the blanks at its ends then. -/
def withoutMark (marks : List Char) (s : String) : String :=
  if s.toList.getLast?.any marks.contains then trim (String.ofList s.toList.dropLast) else s

namespace Sentence

variable {marks : List Char}

/-- A trimmed sentence without its mark is the sentence without the mark, trimmed. -/
theorem withoutMark_written {sentence : List Char × Char} (hmark : sentence.2 ∈ marks)
    (hblank : isBlank sentence.2 = false) :
    withoutMark marks (String.ofList (strip (written true sentence))) =
      String.ofList (strip sentence.1) := by
  obtain ⟨body, mark⟩ := sentence
  have hstrip : strip (written true (body, mark)) = body.dropWhile isBlank ++ [mark] :=
    strip_concat hblank body
  have hlast : (body.dropWhile isBlank ++ [mark]).getLast?.any marks.contains = true := by
    simpa using hmark
  rw [withoutMark, hstrip, String.toList_ofList, if_pos hlast, List.dropLast_concat, trim,
    String.toList_ofList, strip_dropWhile]

/-- To take the marks of ended sentences away is to cut without them. -/
theorem trimmed_written_false {ended : List (List Char × Char)}
    (hended : ∀ sentence ∈ ended, sentence.2 ∈ marks ∧ isBlank sentence.2 = false) :
    trimmed (ended.map (written false)) =
      ((trimmed (ended.map (written true))).map (withoutMark marks)).filter (· ≠ "") := by
  induction ended with
  | nil => rfl
  | cons sentence ended ih =>
    obtain ⟨⟨hmark, hblank⟩, hrest⟩ := List.forall_mem_cons.1 hended
    have hne := strip_written_ne_nil hblank
    have hwritten : written false sentence = sentence.1 := List.append_nil _
    rw [List.map_cons, List.map_cons, trimmed_cons, trimmed_cons, if_neg hne, List.map_cons,
      List.filter_cons, withoutMark_written hmark hblank, ih hrest, hwritten]
    by_cases hbody : strip sentence.1 = [] <;> simp [hbody]

end Sentence

/-- **Sentences are the same with their marks and without them.** If no mark is a blank, the
sentences that are cut off without their marks are those with them, after the mark at the end of
each and then the blanks were taken away, and without those of which nothing is left then. What is
behind the last position at which a sentence ends is the last sentence in both cases, if it is not
blank, and there is no mark at its end. -/
theorem splitSentences_without_marks {marks : List Char} (hmarks : ∀ c ∈ marks, isBlank c = false)
    (text : String) :
    splitSentences marks false text =
        ((splitSentences marks true text).map (withoutMark marks)).filter (· ≠ "") ∧
      (∀ keep, (remainder marks text.toList).all isBlank = false →
        (splitSentences marks keep text).getLast? =
          some (String.ofList (strip (remainder marks text.toList)))) ∧
      ∀ c ∈ (strip (remainder marks text.toList)).getLast?, c ∉ marks := by
  obtain ⟨ended, rest, hparts⟩ := exists_parted marks text.toList
  obtain ⟨-, hrest⟩ := hparts.length_ends
  have hopen : ∀ c ∈ (strip rest).getLast?, c ∉ marks := fun _ hc =>
    hparts.not_mem_marks_of_getLast?_strip hc
  have hbehind : ∀ keep, rest.all isBlank = false →
      (splitSentences marks keep text).getLast? = some (String.ofList (strip rest)) := by
    intro keep hblank
    rw [splitSentences_eq, hparts.pieces_eq]
    exact getLast?_trimmed_concat _ hblank
  refine ⟨?_, hrest ▸ hbehind, hrest ▸ hopen⟩
  have hended : ∀ sentence ∈ ended, sentence.2 ∈ marks ∧ isBlank sentence.2 = false :=
    fun sentence hsentence =>
      ⟨hparts.mem_marks hsentence, hmarks _ (hparts.mem_marks hsentence)⟩
  -- what is left has no mark at its end
  have hleft : trimmed [rest] = ((trimmed [rest]).map (withoutMark marks)).filter (· ≠ "") := by
    have hany : (strip rest).getLast?.any marks.contains = false := by
      cases hlast : (strip rest).getLast? with
      | none => rfl
      | some c => simpa using hopen c hlast
    rw [trimmed_cons]
    split
    · rfl
    · next hne => simp [withoutMark, hany, hne, trimmed]
  rw [splitSentences_eq, splitSentences_eq, hparts.pieces_eq, hparts.pieces_eq, trimmed_append,
    trimmed_append, List.map_append, List.filter_append, ← hleft, trimmed_written_false hended]

theorem splitSentences_without_marks_prices :
    splitSentences ['.', '!', '?', ';'] false " Is it 3.50?! ! Yes..  no <b>x!</b>" =
        ["Is it 3.50?", "Yes.", "no <b>x", "</b>"] ∧
      splitSentences ['.', '!', '?', ';'] true " Is it 3.50?! ! Yes..  no <b>x!</b>" =
        ["Is it 3.50?!", "!", "Yes..", "no <b>x!", "</b>"] ∧
      splitSentences ['.', '!', '?', ';'] false " Is it 3.50?! ! Yes..  no <b>x!</b>" =
        ((splitSentences ['.', '!', '?', ';'] true
          " Is it 3.50?! ! Yes..  no <b>x!</b>").map (withoutMark ['.', '!', '?', ';'])).filter
            (· ≠ "") := by
  have hmarks : (['.', '!', '?', ';'].all fun c => isBlank c == false) = true := by decide
  obtain ⟨hagree, -⟩ := splitSentences_without_marks
    (fun c hc => eq_of_beq (List.all_eq_true.1 hmarks c hc)) " Is it 3.50?! ! Yes..  no <b>x!</b>"
  exact ⟨by decide +kernel, by decide +kernel, hagree⟩

end Parley
