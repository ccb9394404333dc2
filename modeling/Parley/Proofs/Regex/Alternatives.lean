import Mathlib.Data.List.Nodup
import Parley.Proofs.Regex.Runs

/-!
# Alternatives in groups of their own

Several expressions can be read as the alternatives of one, each in a group around it and all
without regard to case. That works out if each of them works out so by itself and no two name a
group alike.
Main results: `State.Between.readFrom_group` for one alternative, and
`isSome_readState?_alternation` for all of them.
-/

namespace Parley.Regex

open Text

/-- What the reader makes of an expression of any size. -/
def readState? (text : List Char) : Option State := readFrom (text.length + 1) {} text

/-- The names of the groups of an expression. -/
def groupNames (text : List Char) : List (List Char) := ((readState? text).map State.names).getD []

/-- Whether verbose mode is on at the end of an expression, where a comment can stand. -/
def EndsVerbose (text : List Char) : Prop := ∃ e, readState? text = some e ∧ e.flags.verbose = true

/-- Expressions as alternatives, each in a group. -/
def grouped (texts : List (List Char)) : List Char :=
  List.intercalate ['|'] (texts.map fun s => '(' :: s ++ [')'])

/-- Expressions as the alternatives of one that ignores case. -/
def alternation (texts : List (List Char)) : List Char := "(?i)".toList ++ grouped texts

/-- The flags in force in an alternation. -/
def caseless : Flags := { ignoreCase := true }

/-- A state between two groups of an alternation. -/
structure State.Between (st : State) : Prop where
  flags : st.flags = caseless
  outer : st.outer = []
  names : st.names.Nodup

/-- The state behind the parenthesis that begins a group. -/
def State.opened (st : State) : State :=
  { st with groups := st.groups + 1 }.openGroup (some (st.groups + 1)) st.flags

/-- Whether a character asks for the repetition of what is in front of it. -/
def isRepetition (c : Char) : Bool := ['?', '*', '+', '\x7b'].contains c

theorem isRepetition_of_readPiece {f : Flags} {c : Char} {s r : List Char} {min : Nat}
    {max? : Option Nat} {greedy : Bool}
    (h : readPiece f (c :: s) = some (.again min max? greedy, r)) : isRepetition c = true := by
  change pieceBehind f c s = _ at h
  have hmapping : ∀ {α : Type} {R : Reader α} {k : α → Piece},
      mapping k R s = some (.again min max? greedy, r) → ∃ a, k a = .again min max? greedy := by
    intro α R k h
    obtain ⟨q, -, heq⟩ := Option.map_eq_some_iff.1 h
    exact ⟨q.1, (Prod.mk.inj heq).1⟩
  unfold pieceBehind at h
  split at h <;> try rfl
  all_goals try exact absurd (Prod.mk.inj (Option.some.inj h)).1 Piece.noConfusion
  · obtain ⟨a, ha⟩ := hmapping h
    cases ha
  · obtain ⟨a, ha⟩ := hmapping h
    cases ha
  · obtain ⟨a, ha⟩ := hmapping h
    cases ha
  · obtain ⟨q, hq, heq⟩ := Option.map_eq_some_iff.1 h
    obtain ⟨d, -, rfl⟩ := Option.map_eq_some_iff.1 hq
    cases (Prod.mk.inj heq).1

/-- An expression does not begin with a repetition. -/
theorem isRepetition_of_readState? {c : Char} {s : List Char} {e : State}
    (h : readState? (c :: s) = some e) : isRepetition c = false := by
  rw [Bool.eq_false_iff]
  intro hc
  -- at the start there is nothing to repeat
  have hagain : ∀ p r, readPiece {} (c :: s) = some (p, r) → State.take? {} p = none := by
    intro p r hpiece
    change pieceBehind {} c s = _ at hpiece
    have hrepeat : ∀ {min max? m}, repetition min max? m = some (p, r) →
        State.take? {} p = none := by
      intro min max? m hm
      obtain ⟨greedy, rfl⟩ := eq_again_of_repetition hm
      rfl
    rw [isRepetition, List.contains_iff_mem] at hc
    simp only [List.mem_cons, List.not_mem_nil, or_false] at hc
    rcases hc with rfl | rfl | rfl | rfl
    · exact hrepeat hpiece
    · exact hrepeat hpiece
    · exact hrepeat hpiece
    · obtain ⟨q, -, hpiece⟩ := Option.bind_eq_some_iff.1 hpiece
      obtain ⟨q', -, hpiece⟩ := Option.bind_eq_some_iff.1 hpiece
      exact hrepeat hpiece
  cases hpiece : readPiece {} (c :: s) with
  | none =>
    have hnone : readState? (c :: s) = none :=
      @readFrom_of_readPiece_eq_none {} (c :: s) (List.cons_ne_nil c s) hpiece _
    cases hnone.symm.trans h
  | some q =>
    have hnone : readState? (c :: s) = none := by
      refine (@readFrom_of_readPiece {} (c :: s) q.2 q.1 hpiece _).trans ?_
      rw [hagain q.1 q.2 hpiece]
      rfl
    cases hnone.symm.trans h

/-- So a parenthesis in front of an expression captures. -/
theorem append_ne_of_readState? {s : List Char} {e : State} (h : readState? s = some e)
    (t rest : List Char) : s ++ ')' :: t ≠ '?' :: rest := by
  intro heq
  cases s with
  | nil => simp at heq
  | cons c s =>
    rw [(List.cons.inj heq).1] at h
    exact absurd (isRepetition_of_readState? h) (by decide)

theorem State.Between.readFrom_open {st : State} (hst : st.Between) {s : List Char}
    (hs : ∀ rest, s ≠ '?' :: rest) (n : Nat) :
    readFrom (n + 1) st ('(' :: s) = readFrom n st.opened s := by
  have hopening : readOpening caseless s = some (.capture, s) := by
    rw [readOpening_eq]
    show onChar '?' _ _ s = _
    rw [onChar_of_ne hs]
    rfl
  have hpiece : readPiece st.flags (skip st.flags ('(' :: s)) = some (.opening .capture, s) := by
    rw [hst.flags]
    show (readOpening caseless s).map _ = _
    rw [hopening]
    rfl
  rw [readFrom_of_readPiece hpiece]
  rfl

theorem readFrom_close {st st' : State} (h : st.closeGroup? = some st') (n : Nat) (t : List Char) :
    readFrom (n + 1) st (')' :: t) = readFrom n st' t := by
  have hpiece : readPiece st.flags (skip st.flags (')' :: t)) = some (.close, t) := by
    rw [skip_parenthesis]
    rfl
  rw [readFrom_of_readPiece hpiece, State.take?, h]
  rfl

theorem groupNames_of_readState? {s : List Char} {e : State} (h : readState? s = some e) :
    groupNames s = e.names := by
  rw [groupNames, h]
  rfl

theorem State.Between.stack_opened {st : State} (hst : st.Between) :
    st.opened.stack = [caseless, caseless] := by
  show st.flags :: st.flags :: st.outer.map OpenGroup.flags = _
  rw [hst.flags, hst.outer]
  rfl

/-- The end of a group of an alternation. -/
theorem State.Between.exists_closeGroup? {st e e' : State} (hst : st.Between)
    (hin : st.opened.Within e e') (houter : e.outer = []) (hnames : e'.names.Nodup) :
    ∃ st', e'.closeGroup? = some st' ∧ st'.Between ∧ st'.names = e'.names := by
  obtain ⟨groups, hgroups, houter'⟩ := hin.outer
  rw [houter] at hgroups
  cases hgroups
  rw [State.closeGroup?, houter']
  exact ⟨_, rfl, ⟨hst.flags, hst.outer, hnames⟩, rfl⟩

/-- A group of an alternation is read, and adds its names, if they are new; if not, reading ends
there. -/
theorem State.Between.readFrom_group {st e : State} (hst : st.Between) {s : List Char}
    (hs : readState? s = some e) (hclosed : EndsVerbose s → ¬LeavesOpen [caseless, caseless] s) :
    ∃ k, k ≤ s.length + 2 ∧
      ((List.Disjoint (groupNames s) st.names ∧ ∃ st' : State, st'.Between ∧
          st'.names = groupNames s ++ st.names ∧
          ∀ n t, readFrom (k + n) st ('(' :: (s ++ ')' :: t)) = readFrom n st' t) ∨
        ¬List.Disjoint (groupNames s) st.names ∧
          ∀ n t, readFrom (k + n) st ('(' :: (s ++ ')' :: t)) = none) := by
  obtain ⟨ps, hps, hlength, houter, hencloses⟩ := exists_encloses hs
  have hflags : List.Forall₂ Flags.Alike (State.stack {}) [caseless] := .cons ⟨true, rfl⟩ .nil
  rcases hencloses [caseless] [caseless] hflags (List.cons_ne_nil _ _) with
    ⟨qs, hqs, hspells⟩ | ⟨hverbose, hopen⟩
  · have hpieces : ∀ n t, readFrom (qs.length + n + 1) st ('(' :: (s ++ ')' :: t)) =
        (st.opened.takeAll? qs).bind fun st => readFrom n st (')' :: t) := by
      intro n t
      rw [hst.readFrom_open (append_ne_of_readState? hs t),
        readFrom_of_spells hspells hst.stack_opened]
    -- alone, the pieces start from nothing; here they start inside of the opened group
    have hwithin : st.opened.Within {} st.opened := ⟨.nil, ⟨[], .nil, rfl⟩, rfl⟩
    have hcount := hqs.length_eq
    refine ⟨qs.length + 2, by omega, ?_⟩
    rw [groupNames_of_readState? hs]
    rcases hwithin.takeAll? hqs hps with ⟨e', he', hin⟩ | ⟨⟨name, hname, hbase⟩, hnone⟩
    · have hnames : e'.names = e.names ++ st.names := hin.names
      have hnodup : e'.names.Nodup := (State.names_takeAll? he').2 hst.names
      obtain ⟨st', hclose, hst', hkept⟩ := hst.exists_closeGroup? hin houter hnodup
      refine Or.inl ⟨?_, st', hst', hkept.trans hnames, fun n t => ?_⟩
      · -- no name is ever used twice
        rw [hnames] at hnodup
        exact List.disjoint_of_nodup_append hnodup
      · rw [show qs.length + 2 + n = qs.length + (n + 1) + 1 by omega, hpieces, he']
        exact readFrom_close hclose n t
    · refine Or.inr ⟨fun hdisjoint => hdisjoint hname hbase, fun n t => ?_⟩
      rw [show qs.length + 2 + n = qs.length + (n + 1) + 1 by omega, hpieces, hnone]
      rfl
  · exact absurd hopen (hclosed ⟨e, hs, hverbose⟩)

theorem State.Between.readFrom_bar {st : State} (hst : st.Between) (n : Nat) (t : List Char) :
    readFrom (n + 1) st ('|' :: t) = readFrom n st.bar t := by
  have hpiece : readPiece st.flags (skip st.flags ('|' :: t)) = some (.bar, t) := by
    rw [hst.flags]
    rfl
  rw [readFrom_of_readPiece hpiece]
  rfl

theorem State.Between.bar {st : State} (hst : st.Between) : st.bar.Between :=
  ⟨hst.flags, hst.outer, hst.names⟩

theorem State.Between.isSome_readFrom_nil {st : State} (hst : st.Between) {n : Nat} (hn : n ≠ 0) :
    (readFrom n st []).isSome := by
  obtain ⟨n, rfl⟩ := Nat.exists_eq_succ_of_ne_zero hn
  rw [readFrom_of_skip (skip_nil _), hst.outer]
  rfl

/-- What is behind an alternative. -/
def barred (texts : List (List Char)) : List Char :=
  if texts = [] then [] else '|' :: grouped texts

theorem grouped_cons (s : List Char) (texts : List (List Char)) :
    grouped (s :: texts) = '(' :: (s ++ ')' :: barred texts) := by
  unfold grouped barred
  cases texts with
  | nil => simp
  | cons t texts => simp [grouped]

/-- Alternatives are read to their end if and only if no name is used in two of them or before. -/
theorem State.Between.isSome_readFrom {st : State} (hst : st.Between) {texts : List (List Char)}
    (hread : ∀ s ∈ texts, (readState? s).isSome)
    (hclosed : ∀ s ∈ texts, EndsVerbose s → ¬LeavesOpen [caseless, caseless] s) {n : Nat}
    (hn : (grouped texts).length < n) :
    (readFrom n st (grouped texts)).isSome ↔
      (texts.map groupNames).Pairwise List.Disjoint ∧
        ∀ s ∈ texts, List.Disjoint (groupNames s) st.names := by
  induction texts generalizing st n with
  | nil =>
    simp only [List.map_nil, List.Pairwise.nil, List.not_mem_nil, false_implies, implies_true,
      and_true, iff_true]
    exact hst.isSome_readFrom_nil (Nat.ne_zero_of_lt hn)
  | cons s texts ih =>
    obtain ⟨e, he⟩ := Option.isSome_iff_exists.1 (hread s List.mem_cons_self)
    obtain ⟨k, hk, hgroup⟩ := hst.readFrom_group he (hclosed s List.mem_cons_self)
    rw [grouped_cons] at hn ⊢
    simp only [List.length_cons, List.length_append] at hn
    obtain ⟨m, rfl⟩ := Nat.exists_eq_add_of_le (show k ≤ n by omega)
    rw [List.map_cons, List.pairwise_cons, List.forall_mem_cons]
    rcases hgroup with ⟨hdisjoint, st', hst', hnames, hrest⟩ | ⟨hshared, hnone⟩
    · -- what is behind the group is the end, or a bar and the other alternatives
      have hbarred : (readFrom m st' (barred texts)).isSome ↔
          (texts.map groupNames).Pairwise List.Disjoint ∧
            ∀ s ∈ texts, List.Disjoint (groupNames s) st'.names := by
        by_cases htexts : texts = []
        · subst htexts
          simpa [barred] using hst'.isSome_readFrom_nil (n := m) (by omega)
        · rw [barred, if_neg htexts] at hn ⊢
          rw [List.length_cons] at hn
          obtain ⟨m, rfl⟩ := Nat.exists_eq_add_of_lt (show 0 < m by omega)
          rw [hst'.readFrom_bar]
          refine ih hst'.bar (fun t ht => hread t (List.mem_cons_of_mem s ht))
            (fun t ht => hclosed t (List.mem_cons_of_mem s ht)) (by omega)
      have hsplit : ∀ t, List.Disjoint (groupNames t) (groupNames s ++ st.names) ↔
          List.Disjoint (groupNames s) (groupNames t) ∧ List.Disjoint (groupNames t) st.names :=
        fun t => List.disjoint_append_right.trans (and_congr_left' List.disjoint_comm)
      rw [hrest, hbarred, hnames]
      simp only [hsplit, List.forall_mem_map]
      constructor
      · rintro ⟨hapart, hall⟩
        exact ⟨⟨fun t ht => (hall t ht).1, hapart⟩, hdisjoint, fun t ht => (hall t ht).2⟩
      · rintro ⟨⟨hfirst, hapart⟩, -, hall⟩
        exact ⟨hapart, fun t ht => ⟨hfirst t ht, hall t ht⟩⟩
    · rw [hnone]
      simp [hshared]

/-- The flag in front of an alternation is read first. -/
theorem readState?_alternation (texts : List (List Char)) :
    readState? (alternation texts) =
      readFrom ((grouped texts).length + 4) { flags := caseless, items := [.switch] }
        (grouped texts) := by
  have hpiece : readPiece {} (skip {} ("(?i)".toList ++ grouped texts)) =
      some (.opening (.switch caseless), grouped texts) := rfl
  have hfuel : (alternation texts).length + 1 = (grouped texts).length + 4 + 1 := by
    simp [alternation]
  rw [readState?, hfuel, alternation, readFrom_of_readPiece hpiece]
  rfl

/-- The state behind that flag. -/
theorem between_start : State.Between { flags := caseless, items := [.switch] } :=
  ⟨rfl, rfl, .nil⟩

/-- An expression that can be read as the only alternative does not leave its group open. -/
theorem not_leavesOpen_of_readState? {s : List Char} (hs : (readState? s).isSome)
    (h : (readState? (alternation [s])).isSome) : ¬LeavesOpen [caseless, caseless] s := by
  intro hopen
  obtain ⟨e, he⟩ := Option.isSome_iff_exists.1 hs
  have hgrouped : grouped [s] = '(' :: (s ++ [')']) := grouped_cons s []
  rw [readState?_alternation, hgrouped, between_start.readFrom_open (append_ne_of_readState? he []),
    hopen _ between_start.stack_opened] at h
  cases h

/-- Expressions that can be read alone can be read as the alternatives of one if and only if no two
of them name a group alike. Those that end in verbose mode must not end in a comment: each of them
must be good as the only alternative. -/
theorem isSome_readState?_alternation {texts : List (List Char)}
    (hread : ∀ s ∈ texts, (readState? s).isSome)
    (hsingle : ∀ s ∈ texts, EndsVerbose s → (readState? (alternation [s])).isSome) :
    (readState? (alternation texts)).isSome ↔
      (texts.map groupNames).Pairwise List.Disjoint := by
  have hclosed : ∀ s ∈ texts, EndsVerbose s → ¬LeavesOpen [caseless, caseless] s :=
    fun s hs hverbose => not_leavesOpen_of_readState? (hread s hs) (hsingle s hs hverbose)
  rw [readState?_alternation, between_start.isSome_readFrom hread hclosed (by omega)]
  simp

end Parley.Regex
